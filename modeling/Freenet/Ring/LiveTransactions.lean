import Freenet.Lib.Machine
import Freenet.Node.OpManager

/-! The transactions under way at each peer, and the peer of each transaction. -/
namespace Freenet.Ring
open Lib Table Option
open Node (SocketAddr Transaction)

structure LiveTransactionTracker where
  txPerPeer : Table SocketAddr (List Transaction)
  peerForTx : Table Transaction SocketAddr

inductive LiveTxCall where
  | addTransaction (peerAddr : SocketAddr) (tx : Transaction)
  | removeFinishedTransaction (tx : Transaction)
  | pruneTransactionsFromPeer (peerAddr : SocketAddr)

namespace LiveTransactionTracker

def new : LiveTransactionTracker := ⟨.empty, .empty⟩

variable (t : LiveTransactionTracker) (peerAddr : SocketAddr) (tx : Transaction)

def listed : List Transaction := (t.txPerPeer.get peerAddr).getD []

def addTransaction : LiveTransactionTracker where
  peerForTx := t.peerForTx.insert tx peerAddr
  txPerPeer := t.txPerPeer.insert peerAddr (t.listed peerAddr ++ [tx])

/-- A peer without transactions loses its entry. -/
def unlist : Table SocketAddr (List Transaction) :=
  match t.txPerPeer.get peerAddr with
  | none => t.txPerPeer
  | some txs =>
    let rest := txs.filter (· ≠ tx)
    if rest.isEmpty then t.txPerPeer.remove peerAddr else t.txPerPeer.insert peerAddr rest

def removeFinishedTransaction : LiveTransactionTracker :=
  match t.peerForTx.get tx with
  | none => t
  | some peerAddr => { peerForTx := t.peerForTx.remove tx, txPerPeer := t.unlist peerAddr tx }

def pruneTransactionsFromPeer : LiveTransactionTracker × List Transaction :=
  match t.txPerPeer.get peerAddr with
  | none => (t, [])
  | some txs => (⟨t.txPerPeer.remove peerAddr, txs.foldl Table.remove t.peerForTx⟩, txs)

def apply (t : LiveTransactionTracker) : LiveTxCall → LiveTransactionTracker
  | .addTransaction peerAddr tx => t.addTransaction peerAddr tx
  | .removeFinishedTransaction tx => t.removeFinishedTransaction tx
  | .pruneTransactionsFromPeer peerAddr => (t.pruneTransactionsFromPeer peerAddr).1

def Agrees (t : LiveTransactionTracker) : Prop :=
  ∀ peer tx, tx ∈ t.listed peer ↔ t.peerForTx.get tx = some peer

def SamePeer (t : LiveTransactionTracker) : LiveTxCall → Prop
  | .addTransaction peerAddr tx => ∀ peer ∈ t.peerForTx.get tx, peer = peerAddr
  | _ => True

variable {t tx} {peer peer' : SocketAddr} {tx' : Transaction}

theorem mem_listed_addTransaction : tx' ∈ (t.addTransaction peer tx).listed peer' ↔
    tx' ∈ t.listed peer' ∨ peer' = peer ∧ tx' = tx := by
  rw [listed, addTransaction, get_insert]
  split_ifs with hpeer
  · simp [hpeer]
  · simp [hpeer, listed]

theorem mem_unlist : tx' ∈ ((t.unlist peer tx).get peer').getD [] ↔
    tx' ∈ t.listed peer' ∧ ¬ (peer' = peer ∧ tx' = tx) := by
  by_cases hpeer : peer' = peer
  · subst hpeer
    unfold unlist listed
    cases hget : t.txPerPeer.get peer' with
    | none => simp [hget]
    | some txs =>
      dsimp only
      split_ifs with hempty
      · rw [List.isEmpty_iff, List.filter_eq_nil_iff] at hempty
        simpa using hempty tx'
      · simp
  · have hsame : (t.unlist peer tx).get peer' = t.txPerPeer.get peer' := by
      unfold unlist
      split
      · rfl
      · dsimp only
        split_ifs
        · exact get_remove_of_ne hpeer
        · exact get_insert_of_ne hpeer
    rw [hsame]
    simp [hpeer, listed]

theorem get_foldl_remove {m : Table Transaction SocketAddr} {txs : List Transaction} :
    (txs.foldl remove m).get tx = if tx ∈ txs then none else m.get tx := by
  induction txs generalizing m with
  | nil => simp
  | cons head txs ih =>
    rw [List.foldl_cons, ih, get_remove]
    by_cases hhead : tx = head
    · simp [hhead]
    · simp [hhead]

theorem Agrees.addTransaction_iff (ht : t.Agrees) :
    (t.addTransaction peer tx).Agrees ↔ ∀ peer' ∈ t.peerForTx.get tx, peer' = peer := by
  constructor
  · intro h peer' hpeer'
    have hlist : tx ∈ (t.addTransaction peer tx).listed peer' :=
      mem_listed_addTransaction.mpr (.inl ((ht peer' tx).mpr hpeer'))
    rw [h peer' tx, addTransaction, get_insert_self] at hlist
    exact (some.inj hlist).symm
  · intro hsame peer' tx'
    rw [mem_listed_addTransaction, addTransaction, get_insert, ht peer' tx']
    split_ifs with htx
    · subst htx
      constructor
      · rintro (hpeer' | ⟨rfl, -⟩)
        · rw [hsame peer' hpeer']
        · rfl
      · intro hpeer
        exact .inr ⟨(some.inj hpeer).symm, rfl⟩
    · simp [htx]

theorem Agrees.removeFinishedTransaction (ht : t.Agrees) : (t.removeFinishedTransaction tx).Agrees := by
  unfold LiveTransactionTracker.removeFinishedTransaction
  cases hpeer : t.peerForTx.get tx with
  | none => exact ht
  | some peer =>
    intro peer' tx'
    refine mem_unlist.trans ?_
    rw [ht peer' tx', get_remove]
    split_ifs with htx
    · rw [htx, hpeer]
      simp [eq_comm]
    · simp [htx]

theorem Agrees.pruneTransactionsFromPeer (ht : t.Agrees) : (t.pruneTransactionsFromPeer peer).1.Agrees := by
  unfold LiveTransactionTracker.pruneTransactionsFromPeer
  cases htxs : t.txPerPeer.get peer with
  | none => exact ht
  | some txs =>
    have hmem (tx : Transaction) : tx ∈ txs ↔ t.peerForTx.get tx = some peer := by
      rw [← ht peer tx, listed, htxs, getD_some]
    intro peer' tx'
    rw [get_foldl_remove, listed, get_remove]
    split_ifs with hpeer htx htx
    · simp
    · subst hpeer
      simpa using (hmem tx').not.mp htx
    · have hother : t.peerForTx.get tx' ≠ some peer' := by
        rw [(hmem tx').mp htx]
        exact fun h => hpeer (some.inj h).symm
      simpa [listed, hother] using (ht peer' tx').not.mpr hother
    · exact ht peer' tx'

theorem peerForTx_removeFinishedTransaction : (t.removeFinishedTransaction tx).peerForTx.get tx = none := by
  unfold removeFinishedTransaction
  cases hpeer : t.peerForTx.get tx with
  | none => exact hpeer
  | some peer => exact get_remove_self

theorem Agrees.apply_iff {call : LiveTxCall} (ht : t.Agrees) : (t.apply call).Agrees ↔ t.SamePeer call := by
  cases call with
  | addTransaction peer tx => exact ht.addTransaction_iff
  | removeFinishedTransaction tx => exact iff_of_true ht.removeFinishedTransaction trivial
  | pruneTransactionsFromPeer peer => exact iff_of_true ht.pruneTransactionsFromPeer trivial

end LiveTransactionTracker

open LiveTransactionTracker

def liveTransactions : Machine LiveTransactionTracker LiveTxCall where
  init t := t = .new
  step t call := some (t.apply call)

/-- In all states of a run the two maps agree, and a transaction that was just finished is listed
nowhere, exactly when no transaction is ever added for a second peer. -/
theorem liveTransactions_agree_iff (calls : List LiveTxCall) :
    (∀ fs t, fs <+: calls → liveTransactions.runFrom .new fs = some t →
      (∀ peer tx, tx ∈ t.listed peer ↔ t.peerForTx.get tx = some peer) ∧
      ∀ gs tx, fs = gs ++ [.removeFinishedTransaction tx] → ∀ peer, tx ∉ t.listed peer) ↔
      liveTransactions.Along (fun t call => t.SamePeer call) .new calls := by
  have hagrees := liveTransactions.forall_prefix_iff_along Agrees
    (fun t call ht => by simpa [liveTransactions] using ht.apply_iff) calls
    (s := .new) (fun peer tx => by simp [listed, new])
  rw [← hagrees]
  constructor
  · intro h fs t hpre hrun
    exact (h fs t hpre hrun).1
  · intro h fs t hpre hrun
    have ht := h fs t hpre hrun
    refine ⟨ht, ?_⟩
    rintro gs tx rfl peer hlist
    rw [liveTransactions.runFrom_append, bind_eq_some_iff] at hrun
    obtain ⟨before, -, hlast⟩ := hrun
    cases hlast
    have hnone : (before.removeFinishedTransaction tx).peerForTx.get tx = none :=
      peerForTx_removeFinishedTransaction
    cases hnone.symm.trans ((ht peer tx).mp hlist)

/-- A transaction that was sent to two peers stays listed for the first one when it is finished. -/
theorem retriedTransaction_listed : ∃ t, liveTransactions.runFrom .new
      [.addTransaction 1 (.new .get 1), .addTransaction 2 (.new .get 1),
        .removeFinishedTransaction (.new .get 1)] = some t ∧
    t.listed 1 = [.new .get 1] ∧ t.peerForTx.get (.new .get 1) = none := by
  decide +kernel

end Freenet.Ring
