import Freenet.Contract.StateStore
import Mathlib.Data.Nat.Pairing

/-! The code of contracts: files, a cache, and an index in memory and in the database. -/
namespace Freenet.Contract
open Lib Table

section Store
abbrev CodeHash := Nat

structure WasmContract (C : Type) where
  code : C
  params : Parameters
  deriving DecidableEq

/-- The hashes by which codes and instances are known. -/
structure Hashing (C : Type) where
  codeHash : C → CodeHash
  instanceId : CodeHash → Parameters → ContractInstanceId

/-- No two codes and no two instances have the same hash. -/
structure Hashing.CollisionFree {C : Type} (hashing : Hashing C) : Prop where
  codeHash : ∀ code code', hashing.codeHash code = hashing.codeHash code' → code = code'
  instanceId : ∀ hash params hash' params',
    hashing.instanceId hash params = hashing.instanceId hash' params' → hash = hash' ∧ params = params'

def Hashing.key {C : Type} (hashing : Hashing C) (contract : WasmContract C) : ContractKey :=
  ⟨hashing.instanceId (hashing.codeHash contract.code) contract.params, hashing.codeHash contract.code⟩

theorem Hashing.CollisionFree.eq_of_id {C : Type} {hashing : Hashing C}
    (hfree : hashing.CollisionFree) {contract contract' : WasmContract C}
    (hid : (hashing.key contract).id = (hashing.key contract').id) : contract = contract' := by
  obtain ⟨hhash, hparams⟩ := hfree.instanceId _ _ _ _ hid
  have hcode := hfree.codeHash _ _ hhash
  cases contract'
  cases hcode
  cases hparams
  rfl

inductive ContractStoreError where
  | io
  | index
  deriving DecidableEq, Repr

structure ContractIo where
  createFails : Bool
  writeFails : Bool
  syncFails : Bool
  indexFails : Bool
  removeFails : Bool
  deriving DecidableEq, Repr

def ContractIo.reliable : ContractIo := ⟨false, false, false, false, false⟩

/-- A file that was not written to its end is there without a code. -/
structure ContractStore (C : Type) where
  contractCache : Table CodeHash C
  keyToCodePart : Table ContractInstanceId CodeHash
  db : Table ContractInstanceId CodeHash
  files : Table CodeHash (Option C)

namespace ContractStore
variable {C : Type}

def empty : ContractStore C := ⟨.empty, .empty, .empty, .empty⟩

variable (store : ContractStore C) (io : ContractIo) (key : ContractKey) (params : Parameters) (code : C)

/-- The store as a restart finds it. An index that cannot be read counts as empty. -/
def restart (loads : Bool) : ContractStore C :=
  { store with
    contractCache := .empty
    keyToCodePart := if loads then store.db else .empty }

def loadVersioned (codeHash : CodeHash) : Option C := (store.files.get codeHash).join

/-- Cached code is found whether the instance is indexed or not. -/
def fetchContract : Option (WasmContract C) × ContractStore C :=
  match store.contractCache.get key.codeHash with
  | some code => (some ⟨code, params⟩, store)
  | none =>
    match store.keyToCodePart.get key.id with
    | none => (none, store)
    | some codeHash =>
      match store.loadVersioned codeHash with
      | none => (none, store)
      | some code =>
        (some ⟨code, params⟩,
          { store with contractCache := store.contractCache.insert codeHash code })

/-- Write the index of the instance, in the database first. -/
def writeIndex : Except ContractStoreError Unit × ContractStore C :=
  if io.indexFails then (.error .index, store)
  else (.ok (), { store with
    db := store.db.insert key.id key.codeHash
    keyToCodePart := store.keyToCodePart.insert key.id key.codeHash })

def ensureKeyIndexed : Except ContractStoreError Unit × ContractStore C :=
  if (store.keyToCodePart.get key.id).isSome then (.ok (), store) else store.writeIndex io key

def cacheCode (codeHash : CodeHash) (code : C) : ContractStore C :=
  { store with contractCache := store.contractCache.insert codeHash code }

def cacheIndexed (code : C) :
    Except ContractStoreError Unit × ContractStore C → Except ContractStoreError Unit × ContractStore C
  | (.ok _, store) => (.ok (), store.cacheCode key.codeHash code)
  | (.error e, store) => (.error e, store)

def storeContract : Except ContractStoreError Unit × ContractStore C :=
  match store.contractCache.get key.codeHash with
  | some _ => store.ensureKeyIndexed io key
  | none =>
    match store.loadVersioned key.codeHash with
    | some loaded => cacheIndexed key loaded (store.ensureKeyIndexed io key)
    | none =>
      if io.createFails then (.error .io, store)
      else if io.writeFails then
        (.error .io, { store with files := store.files.insert key.codeHash none })
      else
        let store := { store with files := store.files.insert key.codeHash (some code) }
        if io.syncFails then (.error .io, store) else cacheIndexed key code (store.writeIndex io key)

def removeContract : Except ContractStoreError Unit × ContractStore C :=
  if io.indexFails then (.error .index, store)
  else
    let store := { store with
      db := store.db.remove key.id
      keyToCodePart := store.keyToCodePart.remove key.id }
    if io.removeFails ∨ store.files.get key.codeHash = none then (.error .io, store)
    else (.ok (), { store with files := store.files.remove key.codeHash })

def evict (codeHash : CodeHash) : ContractStore C :=
  { store with contractCache := store.contractCache.remove codeHash }

def codeHashFromId (id : ContractInstanceId) : Option CodeHash := store.keyToCodePart.get id

/-! Whether anything of a contract is in the contract store. Codes are known by their hashes. -/

/-- Neither the code nor the index entry of the contract is there. -/
structure Absent (store : ContractStore CodeHash) (key : ContractKey) : Prop where
  cached : store.contractCache.get key.codeHash = none
  loaded : store.loadVersioned key.codeHash = none
  indexed : store.keyToCodePart.get key.id = none
  persisted : store.db.get key.id = none

/-- The code and the index entry are everywhere where they belong. -/
structure Present (store : ContractStore CodeHash) (key : ContractKey) : Prop where
  cached : store.contractCache.get key.codeHash = some key.codeHash
  filed : store.files.get key.codeHash = some (some key.codeHash)
  indexed : store.keyToCodePart.get key.id = some key.codeHash
  persisted : store.db.get key.id = some key.codeHash

/-- The store after the code may have dropped out of the cache. -/
def settled (store : ContractStore CodeHash) (evicts : Bool) (key : ContractKey) : ContractStore CodeHash :=
  if evicts then store.evict key.codeHash else store

variable {store : ContractStore CodeHash} {io : ContractIo} {key : ContractKey} {evicts : Bool}

@[simp]
theorem settled_files : (store.settled evicts key).files = store.files := by
  cases evicts <;> rfl

@[simp]
theorem settled_keyToCodePart : (store.settled evicts key).keyToCodePart = store.keyToCodePart := by
  cases evicts <;> rfl

@[simp]
theorem settled_db : (store.settled evicts key).db = store.db := by
  cases evicts <;> rfl

theorem absent_empty : (empty : ContractStore CodeHash).Absent key :=
  ⟨rfl, rfl, rfl, rfl⟩

theorem Absent.settled (h : store.Absent key) : (store.settled evicts key).Absent key where
  cached := by
    cases evicts with
    | true => exact get_remove_self
    | false => exact h.cached
  loaded := by
    unfold loadVersioned
    rw [settled_files]
    exact h.loaded
  indexed := by
    rw [settled_keyToCodePart]
    exact h.indexed
  persisted := by
    rw [settled_db]
    exact h.persisted

theorem not_absent_of_filed (h : store.files.get key.codeHash = some (some key.codeHash)) :
    ¬(store.settled evicts key).Absent key := by
  intro habsent
  have hloaded := habsent.loaded
  unfold loadVersioned at hloaded
  rw [settled_files, h] at hloaded
  cases hloaded

theorem Absent.fetchContract (h : store.Absent key) {params : Parameters} :
    store.fetchContract key params = (none, store) := by
  unfold ContractStore.fetchContract
  rw [h.cached, h.indexed]

theorem Absent.storeContract_cases (h : store.Absent key) : (io.createFails ∨ io.writeFails) ∧
        (∃ e store', store.storeContract io key key.codeHash = (.error e, store') ∧ store'.Absent key) ∨
      ¬(io.createFails ∨ io.writeFails) ∧ (io.syncFails ∨ io.indexFails) ∧
        (∃ e store', store.storeContract io key key.codeHash = (.error e, store') ∧
          store'.files.get key.codeHash = some (some key.codeHash)) ∨
      ¬(io.createFails ∨ io.writeFails) ∧ ¬(io.syncFails ∨ io.indexFails) ∧
        ∃ store', store.storeContract io key key.codeHash = (.ok (), store') ∧ store'.Present key := by
  unfold storeContract
  rw [h.cached, h.loaded]
  by_cases hcreate : io.createFails
  · rw [if_pos hcreate]
    exact .inl ⟨.inl hcreate, _, _, rfl, h⟩
  rw [if_neg hcreate]
  by_cases hwrite : io.writeFails
  · rw [if_pos hwrite]
    refine .inl ⟨.inr hwrite, _, _, rfl, h.cached, ?_, h.indexed, h.persisted⟩
    unfold loadVersioned
    rw [get_insert_self]
    rfl
  rw [if_neg hwrite]
  have hwrit : ¬(io.createFails ∨ io.writeFails) := by
    rintro (hfails | hfails)
    · exact hcreate hfails
    · exact hwrite hfails
  by_cases hsync : io.syncFails
  · rw [if_pos hsync]
    exact .inr (.inl ⟨hwrit, .inl hsync, _, _, rfl, get_insert_self⟩)
  rw [if_neg hsync]
  unfold writeIndex
  by_cases hindex : io.indexFails
  · rw [if_pos hindex]
    exact .inr (.inl ⟨hwrit, .inr hindex, _, _, rfl, get_insert_self⟩)
  rw [if_neg hindex]
  have hsynced : ¬(io.syncFails ∨ io.indexFails) := by
    rintro (hfails | hfails)
    · exact hsync hfails
    · exact hindex hfails
  exact .inr (.inr ⟨hwrit, hsynced, _, rfl,
    { cached := get_insert_self
      filed := get_insert_self
      indexed := get_insert_self
      persisted := get_insert_self }⟩)

/-- Only a removal that goes through leaves nothing, and only once the cache forgets the code. -/
theorem Present.absent_removed_iff (h : store.Present key) :
    ((store.removeContract io key).2.settled evicts key).Absent key ↔
      io.indexFails = false ∧ io.removeFails = false ∧ evicts = true := by
  unfold removeContract
  cases hindex : io.indexFails with
  | true =>
    constructor
    · intro habsent
      exact absurd habsent (not_absent_of_filed h.filed)
    · rintro ⟨hfalse, _⟩
      cases hfalse
  | false =>
    cases hremove : io.removeFails with
    | true =>
      constructor
      · intro habsent
        exact absurd habsent (not_absent_of_filed h.filed)
      · rintro ⟨_, hfalse, _⟩
        cases hfalse
    | false =>
      have hfiled : ¬(false = true ∨ store.files.get key.codeHash = none) := by simp [h.filed]
      rw [if_neg hfiled]
      cases evicts with
      | false =>
        constructor
        · intro habsent
          have hcach : store.contractCache.get key.codeHash = none := habsent.cached
          rw [h.cached] at hcach
          cases hcach
        · rintro ⟨_, _, hfalse⟩
          cases hfalse
      | true =>
        refine ⟨fun _ => ⟨rfl, rfl, rfl⟩, fun _ => ?_⟩
        exact
          { cached := get_remove_self
            loaded := congrArg Option.join get_remove_self
            indexed := get_remove_self
            persisted := get_remove_self }

end ContractStore

/-! When the contract store holds what was last done to each instance, and which changes keep it
so. -/
open ContractStore

variable {C : Type} [DecidableEq C]

inductive ContractCall (C : Type) where
  | store (io : ContractIo) (contract : WasmContract C)
  | remove (io : ContractIo) (contract : WasmContract C)
  | fetch (contract : WasmContract C)
  | evict (codeHash : CodeHash)
  | restart (loads : Bool)

inductive Standing where
  | stored
  | removed
  deriving DecidableEq, Repr

structure ContractHistory (C : Type) where
  store : ContractStore C
  standing : Table (WasmContract C) Standing

namespace ContractHistory
variable (h : ContractHistory C) (hashing : Hashing C)

def record (contract : WasmContract C) (standing : Standing) :
    Except ContractStoreError Unit × ContractStore C → ContractHistory C
  | (.ok _, store) => ⟨store, h.standing.insert contract standing⟩
  | (.error _, store) => ⟨store, h.standing⟩

def fetched (contract : WasmContract C) : Option (WasmContract C) × ContractStore C :=
  h.store.fetchContract (hashing.key contract) contract.params

def step : ContractCall C → ContractHistory C
  | .store io contract =>
    h.record contract .stored (h.store.storeContract io (hashing.key contract) contract.code)
  | .remove io contract =>
    h.record contract .removed (h.store.removeContract io (hashing.key contract))
  | .fetch contract => { h with store := (h.fetched hashing contract).2 }
  | .evict codeHash => { h with store := h.store.evict codeHash }
  | .restart loads => { h with store := h.store.restart loads }

/-- Instances that are stored are found with their code and parameters, and those that were removed
are not found. -/
def FetchesStored : Prop :=
  ∀ contract,
    (h.standing.get contract = some .stored → (h.fetched hashing contract).1 = some contract) ∧
    (h.standing.get contract = some .removed → (h.fetched hashing contract).1 = none)

def SharesCode (contract : WasmContract C) (standing : Standing) : Prop :=
  ∃ other, other ≠ contract ∧ other.code = contract.code ∧ h.standing.get other = some standing

end ContractHistory

def contractStore (hashing : Hashing C) : Machine (ContractHistory C) (ContractCall C) where
  init h := h = ⟨.empty, .empty⟩
  step h call := some (h.step hashing call)

def ContractCall.Undisturbed (hashing : Hashing C) (h : ContractHistory C) : ContractCall C → Prop
  | .store _ contract => ¬ h.SharesCode contract .removed
  | .remove io contract => io.indexFails = false →
      ¬ h.SharesCode contract .stored ∧
      h.store.contractCache.get (hashing.codeHash contract.code) = none ∧
      (h.standing.get contract = some .stored → io.removeFails = false)
  | .restart loads => loads = true
  | _ => True

structure ContractHistory.Represents (hashing : Hashing C) (h : ContractHistory C) : Prop where
  stored : ∀ contract, h.standing.get contract = some .stored →
    h.store.keyToCodePart.get (hashing.key contract).id = some (hashing.codeHash contract.code) ∧
    h.store.db.get (hashing.key contract).id = some (hashing.codeHash contract.code) ∧
    h.store.loadVersioned (hashing.codeHash contract.code) = some contract.code
  indexed : ∀ id codeHash,
    h.store.keyToCodePart.get id = some codeHash ∨ h.store.db.get id = some codeHash →
      ∃ contract, h.standing.get contract = some .stored ∧ hashing.key contract = ⟨id, codeHash⟩
  cached : ∀ codeHash code, h.store.contractCache.get codeHash = some code →
    hashing.codeHash code = codeHash ∧ (h.store.loadVersioned codeHash).isSome
  filed : ∀ codeHash code, h.store.loadVersioned codeHash = some code → hashing.codeHash code = codeHash
  removed : ∀ contract, h.standing.get contract = some .removed →
    h.store.contractCache.get (hashing.codeHash contract.code) = none ∧
    ¬ h.SharesCode contract .stored

namespace ContractHistory
variable {hashing : Hashing C} {h : ContractHistory C}

omit [DecidableEq C] in
theorem Represents.fetchesStored (hfree : hashing.CollisionFree) (hrep : h.Represents hashing) :
    h.FetchesStored hashing := by
  intro contract
  unfold fetched fetchContract
  constructor
  · intro hstor
    obtain ⟨hindex, -, hfile⟩ := hrep.stored contract hstor
    cases hcache : h.store.contractCache.get (hashing.key contract).codeHash with
    | some code =>
      have hcode : code = contract.code := hfree.codeHash _ _ (hrep.cached _ _ hcache).1
      rw [hcode]
    | none =>
      rw [hindex]
      dsimp only
      rw [hfile]
  · intro hremd
    obtain ⟨hcache, -⟩ := hrep.removed contract hremd
    have hmiss : h.store.contractCache.get (hashing.key contract).codeHash = none := hcache
    rw [hmiss]
    cases hindex : h.store.keyToCodePart.get (hashing.key contract).id with
    | none => rfl
    | some codeHash =>
      obtain ⟨other, hother, hkey⟩ := hrep.indexed _ _ (.inl hindex)
      have hid : (hashing.key other).id = (hashing.key contract).id := by rw [hkey]
      rw [hfree.eq_of_id hid, hremd] at hother
      cases hother

omit [DecidableEq C] in
theorem Represents.writeFile (hrep : h.Represents hashing) {codeHash : CodeHash} {file : Option C}
    (hload : h.store.loadVersioned codeHash = none)
    (hfile : ∀ code, file = some code → hashing.codeHash code = codeHash) :
    Represents hashing
      { h with store := { h.store with files := h.store.files.insert codeHash file } } := by
  have hkept : ∀ codeHash' code, h.store.loadVersioned codeHash' = some code →
      ((h.store.files.insert codeHash file).get codeHash').join = some code := by
    intro codeHash' code hcode
    have hne : codeHash' ≠ codeHash := by
      rintro rfl
      rw [hload] at hcode
      cases hcode
    rw [get_insert_of_ne hne]
    exact hcode
  refine ⟨?_, hrep.indexed, ?_, ?_, hrep.removed⟩
  · intro contract hstor
    obtain ⟨hindex, hdb, hcode⟩ := hrep.stored contract hstor
    exact ⟨hindex, hdb, hkept _ _ hcode⟩
  · intro codeHash' code hcache
    obtain ⟨hhash, hsome⟩ := hrep.cached codeHash' code hcache
    obtain ⟨code', hcode'⟩ := Option.isSome_iff_exists.mp hsome
    exact ⟨hhash, Option.isSome_iff_exists.mpr ⟨code', hkept _ _ hcode'⟩⟩
  · intro codeHash' code hcode
    have hget : ((h.store.files.insert codeHash file).get codeHash').join = some code := hcode
    rw [get_insert] at hget
    split_ifs at hget with heq
    · rw [heq]
      exact hfile code hget
    · exact hrep.filed codeHash' code hget

variable {contract : WasmContract C}

section CollisionFree
variable (hfree : hashing.CollisionFree)
include hfree

section Represented
variable (hrep : h.Represents hashing)
include hrep

theorem Represents.markStored (hshar : ¬ h.SharesCode contract .removed)
    (hfile : (h.store.loadVersioned (hashing.codeHash contract.code)).isSome) :
    Represents hashing ⟨{ h.store with
          db := h.store.db.insert (hashing.key contract).id (hashing.key contract).codeHash
          keyToCodePart :=
            h.store.keyToCodePart.insert (hashing.key contract).id (hashing.key contract).codeHash },
        h.standing.insert contract .stored⟩ := by
  obtain ⟨code, hcode⟩ := Option.isSome_iff_exists.mp hfile
  have hown : code = contract.code := hfree.codeHash _ _ (hrep.filed _ _ hcode)
  rw [hown] at hcode
  refine ⟨?_, ?_, hrep.cached, hrep.filed, ?_⟩
  · intro other hother
    by_cases hsame : other = contract
    · subst hsame
      exact ⟨get_insert_self, get_insert_self, hcode⟩
    · have hstor : h.standing.get other = some .stored := by
        rwa [get_insert_of_ne hsame] at hother
      obtain ⟨hindex, hdb, hload⟩ := hrep.stored other hstor
      have hne : (hashing.key other).id ≠ (hashing.key contract).id :=
        fun hid => hsame (hfree.eq_of_id hid)
      exact ⟨(get_insert_of_ne hne).trans hindex, (get_insert_of_ne hne).trans hdb, hload⟩
  · intro id codeHash hindex
    by_cases hid : id = (hashing.key contract).id
    · subst hid
      rw [get_insert_self, get_insert_self, or_self] at hindex
      cases hindex
      exact ⟨contract, get_insert_self, rfl⟩
    · rw [get_insert_of_ne hid, get_insert_of_ne hid] at hindex
      obtain ⟨other, hother, hkey⟩ := hrep.indexed id codeHash hindex
      refine ⟨other, ?_, hkey⟩
      rw [get_insert]
      split_ifs
      · rfl
      · exact hother
  · intro other hother
    obtain ⟨hne, hgone⟩ := get_of_get_insert hother nofun
    obtain ⟨hcache, hnone⟩ := hrep.removed other hgone
    refine ⟨hcache, ?_⟩
    rintro ⟨third, hthird, hsame, hstor⟩
    by_cases hnew : third = contract
    · subst hnew
      exact hshar ⟨other, hne, hsame.symm, hgone⟩
    · rw [get_insert_of_ne hnew] at hstor
      exact hnone ⟨third, hthird, hsame, hstor⟩

omit [DecidableEq C] in
theorem Represents.cacheCode {codeHash : CodeHash} {code : C}
    (hload : h.store.loadVersioned codeHash = some code)
    (hremd : ∀ contract, h.standing.get contract = some .removed → contract.code ≠ code) :
    Represents hashing { h with store := h.store.cacheCode codeHash code } := by
  have hhash := hrep.filed _ _ hload
  refine ⟨hrep.stored, hrep.indexed, ?_, hrep.filed, ?_⟩
  · intro codeHash' code' hcache
    have hget : (h.store.contractCache.insert codeHash code).get codeHash' = some code' := hcache
    rw [get_insert] at hget
    split_ifs at hget with heq
    · cases hget
      rw [heq]
      exact ⟨hhash, Option.isSome_iff_exists.mpr ⟨code, hload⟩⟩
    · exact hrep.cached codeHash' code' hget
  · intro contract hgone
    obtain ⟨hcache, hnone⟩ := hrep.removed contract hgone
    refine ⟨?_, hnone⟩
    have hne : hashing.codeHash contract.code ≠ codeHash := by
      rw [← hhash]
      exact fun heq => hremd contract hgone (hfree.codeHash _ _ heq)
    exact (get_insert_of_ne hne).trans hcache

omit [DecidableEq C] in
theorem Represents.remove_of_not_stored (hnot : h.standing.get contract ≠ some .stored) :
    h.store.keyToCodePart.remove (hashing.key contract).id = h.store.keyToCodePart ∧
      h.store.db.remove (hashing.key contract).id = h.store.db := by
  have hnone : ∀ codeHash, ¬ (h.store.keyToCodePart.get (hashing.key contract).id = some codeHash ∨
      h.store.db.get (hashing.key contract).id = some codeHash) := by
    intro codeHash hindex
    obtain ⟨other, hother, hkey⟩ := hrep.indexed _ _ hindex
    rw [hfree.eq_of_id (show (hashing.key other).id = (hashing.key contract).id by rw [hkey])] at hother
    exact hnot hother
  constructor
  · refine remove_of_get (Option.eq_none_iff_forall_ne_some.mpr ?_)
    exact fun codeHash hget => hnone codeHash (.inl hget)
  · refine remove_of_get (Option.eq_none_iff_forall_ne_some.mpr ?_)
    exact fun codeHash hget => hnone codeHash (.inr hget)

theorem Represents.markRemoved (hshar : ¬ h.SharesCode contract .stored)
    (hcache : h.store.contractCache.get (hashing.codeHash contract.code) = none) :
    Represents hashing ⟨{ h.store with
          db := h.store.db.remove (hashing.key contract).id
          keyToCodePart := h.store.keyToCodePart.remove (hashing.key contract).id
          files := h.store.files.remove (hashing.key contract).codeHash },
        h.standing.insert contract .removed⟩ := by
  have hkept : ∀ codeHash, codeHash ≠ (hashing.key contract).codeHash →
      ((h.store.files.remove (hashing.key contract).codeHash).get codeHash).join =
        h.store.loadVersioned codeHash := by
    intro codeHash hne
    rw [get_remove_of_ne hne]
    rfl
  refine ⟨?_, ?_, ?_, ?_, ?_⟩
  · intro other hother
    obtain ⟨hne, hstor⟩ := get_of_get_insert hother nofun
    obtain ⟨hindex, hdb, hload⟩ := hrep.stored other hstor
    have hid : (hashing.key other).id ≠ (hashing.key contract).id :=
      fun hid => hne (hfree.eq_of_id hid)
    have hhash : hashing.codeHash other.code ≠ (hashing.key contract).codeHash :=
      fun hhash => hshar ⟨other, hne, hfree.codeHash _ _ hhash, hstor⟩
    exact ⟨(get_remove_of_ne hid).trans hindex, (get_remove_of_ne hid).trans hdb,
      (hkept _ hhash).trans hload⟩
  · intro id codeHash hindex
    have hid : id ≠ (hashing.key contract).id := by
      rintro rfl
      rw [get_remove_self, get_remove_self, or_self] at hindex
      cases hindex
    rw [get_remove_of_ne hid, get_remove_of_ne hid] at hindex
    obtain ⟨other, hother, hkey⟩ := hrep.indexed id codeHash hindex
    refine ⟨other, ?_, hkey⟩
    have hne : other ≠ contract := by
      rintro rfl
      rw [hkey] at hid
      exact hid rfl
    exact (get_insert_of_ne hne).trans hother
  · intro codeHash code hcach
    have hhash : codeHash ≠ (hashing.key contract).codeHash := by
      rintro rfl
      have hget : h.store.contractCache.get (hashing.codeHash contract.code) = some code := hcach
      rw [hcache] at hget
      cases hget
    obtain ⟨hcode, hfile⟩ := hrep.cached codeHash code hcach
    refine ⟨hcode, ?_⟩
    unfold loadVersioned
    rw [hkept _ hhash]
    exact hfile
  · intro codeHash code hload
    have hhash : codeHash ≠ (hashing.key contract).codeHash := by
      rintro rfl
      unfold loadVersioned at hload
      rw [get_remove_self] at hload
      cases hload
    unfold loadVersioned at hload
    rw [hkept _ hhash] at hload
    exact hrep.filed codeHash code hload
  · intro other hother
    by_cases hsame : other = contract
    · subst hsame
      refine ⟨hcache, ?_⟩
      rintro ⟨third, hthird, hcode, hstor⟩
      exact hshar ⟨third, hthird, hcode, (get_of_get_insert hstor nofun).2⟩
    · have hgone : h.standing.get other = some .removed := by
        rwa [get_insert_of_ne hsame] at hother
      obtain ⟨hcach, hnone⟩ := hrep.removed other hgone
      refine ⟨hcach, ?_⟩
      rintro ⟨third, hthird, hcode, hstor⟩
      exact hnone ⟨third, hthird, hcode, (get_of_get_insert hstor nofun).2⟩

end Represented
end CollisionFree
end ContractHistory

end Store

/-! Runs of the contract store: a stored instance is found, and a removed one is not. -/
open Option Standing

variable {C : Type} [DecidableEq C]

namespace ContractHistory
variable {hashing : Hashing C} {h : ContractHistory C} {contract : WasmContract C}

/-- Indexing an instance fails and changes nothing, or makes it a stored one. -/
def Indexes (hashing : Hashing C) (h : ContractHistory C) (contract : WasmContract C)
    (result : Except ContractStoreError Unit × ContractStore C) : Prop :=
  (∃ e, result = (.error e, h.store)) ∨ ∃ store, result = (.ok (), store) ∧
    store.files = h.store.files ∧ Represents hashing ⟨store, h.standing.insert contract .stored⟩

section Represented
variable (hfree : hashing.CollisionFree) (hrep : h.Represents hashing)
include hfree hrep

section Unshared
variable (hshar : ¬ h.SharesCode contract .removed)
include hshar

theorem Represents.writeIndex
    (hfile : (h.store.loadVersioned (hashing.codeHash contract.code)).isSome) (io : ContractIo) :
    h.Indexes hashing contract (h.store.writeIndex io (hashing.key contract)) := by
  unfold ContractStore.writeIndex
  split_ifs
  · exact .inl ⟨_, rfl⟩
  · exact .inr ⟨_, rfl, rfl, hrep.markStored hfree hshar hfile⟩

theorem Represents.ensureKeyIndexed
    (hfile : (h.store.loadVersioned (hashing.codeHash contract.code)).isSome) (io : ContractIo) :
    h.Indexes hashing contract (h.store.ensureKeyIndexed io (hashing.key contract)) := by
  unfold ContractStore.ensureKeyIndexed
  split_ifs with hsome
  · obtain ⟨codeHash, hindex⟩ := isSome_iff_exists.mp hsome
    obtain ⟨other, hother, hkey⟩ := hrep.indexed _ _ (.inl hindex)
    have hsame : other = contract := hfree.eq_of_id (by rw [hkey])
    rw [hsame] at hother
    refine .inr ⟨_, rfl, rfl, ?_⟩
    rw [insert_of_get hother]
    exact hrep
  · exact hrep.writeIndex hfree hshar hfile io

theorem Represents.cacheIndexed
    (hload : h.store.loadVersioned (hashing.codeHash contract.code) = some contract.code)
    {result : Except ContractStoreError Unit × ContractStore C}
    (hresult : h.Indexes hashing contract result) : Represents hashing (h.record contract .stored
      (ContractStore.cacheIndexed (hashing.key contract) contract.code result)) := by
  rcases hresult with ⟨e, rfl⟩ | ⟨store, rfl, hfiles, hstor⟩
  · exact hrep
  · refine Represents.cacheCode hfree hstor ?_ ?_
    · unfold ContractStore.loadVersioned
      rw [hfiles]
      exact hload
    · intro other hother hsame
      obtain ⟨hne, hgone⟩ := get_of_get_insert hother nofun
      exact hshar ⟨other, hne, hsame, hgone⟩

theorem Represents.storeContract (io : ContractIo) : Represents hashing (h.record contract .stored
      (h.store.storeContract io (hashing.key contract) contract.code)) := by
  unfold ContractStore.storeContract
  cases hcache : h.store.contractCache.get (hashing.key contract).codeHash with
  | some code =>
    have hfile := (hrep.cached _ _ hcache).2
    rcases hrep.ensureKeyIndexed hfree hshar hfile io with ⟨e, heq⟩ | ⟨store, heq, -, hstor⟩
    · rw [heq]
      exact hrep
    · rw [heq]
      exact hstor
  | none =>
    cases hload : h.store.loadVersioned (hashing.key contract).codeHash with
    | some loaded =>
      have hown : loaded = contract.code := hfree.codeHash _ _ (hrep.filed _ _ hload)
      subst hown
      exact hrep.cacheIndexed hfree hshar hload
        (hrep.ensureKeyIndexed hfree hshar (isSome_iff_exists.mpr ⟨_, hload⟩) io)
    | none =>
      have hwrit : Represents hashing { h with store := { h.store with
          files := h.store.files.insert (hashing.key contract).codeHash (some contract.code) } } := by
        refine hrep.writeFile hload ?_
        rintro code ⟨⟩
        rfl
      split_ifs
      · exact hrep
      · refine hrep.writeFile hload ?_
        rintro code ⟨⟩
      · exact hwrit
      · have hfile : ((h.store.files.insert (hashing.key contract).codeHash
            (some contract.code)).get (hashing.codeHash contract.code)).join = some contract.code := by
          show ((h.store.files.insert (hashing.codeHash contract.code) _).get _).join = _
          rw [get_insert_self]
          rfl
        exact hwrit.cacheIndexed hfree hshar hfile
          (hwrit.writeIndex hfree hshar (isSome_iff_exists.mpr ⟨_, hfile⟩) io)

end Unshared

theorem Represents.removeContract {io : ContractIo}
    (hcond : (ContractCall.remove io contract).Undisturbed hashing h) :
    Represents hashing (h.record contract .removed (h.store.removeContract io (hashing.key contract))) := by
  unfold ContractStore.removeContract
  by_cases hindex : io.indexFails
  · rw [if_pos hindex]
    exact hrep
  · obtain ⟨hshar, hcache, hrems⟩ := hcond (by simpa using hindex)
    dsimp only
    split_ifs with hfails
    · -- The removal of the file fails only for an instance that is not stored.
      have hnot : h.standing.get contract ≠ some .stored := by
        intro hstor
        obtain ⟨-, -, hload⟩ := hrep.stored contract hstor
        rcases hfails with hfails | hmissing
        · rw [hrems hstor] at hfails
          cases hfails
        · have hfile : h.store.files.get (hashing.codeHash contract.code) = none := hmissing
          unfold ContractStore.loadVersioned at hload
          rw [hfile] at hload
          cases hload
      obtain ⟨hmemory, hdb⟩ := hrep.remove_of_not_stored hfree hnot
      rw [hmemory, hdb]
      exact hrep
    · exact hrep.markRemoved hfree hshar hcache

omit [DecidableEq C] in
theorem Represents.fetchContract (contract : WasmContract C) :
    Represents hashing { h with store := (h.fetched hashing contract).2 } := by
  unfold fetched ContractStore.fetchContract
  cases h.store.contractCache.get (hashing.key contract).codeHash with
  | some code => exact hrep
  | none =>
    cases hindex : h.store.keyToCodePart.get (hashing.key contract).id with
    | none => exact hrep
    | some codeHash =>
      dsimp only
      cases hload : h.store.loadVersioned codeHash with
      | none => exact hrep
      | some code =>
        refine hrep.cacheCode hfree hload ?_
        intro other hgone hcode
        obtain ⟨owner, hstor, hkey⟩ := hrep.indexed _ _ (.inl hindex)
        have hhash : hashing.codeHash owner.code = codeHash := congrArg ContractKey.codeHash hkey
        have howner : owner.code = other.code := by
          rw [hcode]
          exact hfree.codeHash _ _ (hhash.trans (hrep.filed _ _ hload).symm)
        refine (hrep.removed other hgone).2 ⟨owner, ?_, howner, hstor⟩
        rintro rfl
        rw [hstor] at hgone
        cases hgone

end Represented

omit [DecidableEq C] in
theorem Represents.evict (hrep : h.Represents hashing) (codeHash : CodeHash) :
    Represents hashing { h with store := h.store.evict codeHash } := by
  refine ⟨hrep.stored, hrep.indexed, ?_, hrep.filed, ?_⟩
  · intro codeHash' code hget
    exact hrep.cached codeHash' code (get_of_get_remove hget).2
  · intro contract hgone
    obtain ⟨hcache, hnone⟩ := hrep.removed contract hgone
    refine ⟨eq_none_iff_forall_ne_some.mpr fun code hget => ?_, hnone⟩
    rw [(get_of_get_remove hget).2] at hcache
    cases hcache

omit [DecidableEq C] in
theorem Represents.restart (hrep : h.Represents hashing) :
    Represents hashing { h with store := h.store.restart true } := by
  refine ⟨?_, ?_, ?_, hrep.filed, ?_⟩
  · intro contract hstor
    obtain ⟨-, hdb, hload⟩ := hrep.stored contract hstor
    exact ⟨hdb, hdb, hload⟩
  · intro id codeHash hindex
    exact hrep.indexed id codeHash (.inr (or_self_iff.mp hindex))
  · intro codeHash code hget
    cases hget
  · intro contract hgone
    exact ⟨rfl, (hrep.removed contract hgone).2⟩

theorem Represents.step (hfree : hashing.CollisionFree) (hrep : h.Represents hashing)
    {call : ContractCall C} (hcond : call.Undisturbed hashing h) :
    Represents hashing (h.step hashing call) := by
  cases call with
  | store io contract => exact hrep.storeContract hfree hcond io
  | remove io contract => exact hrep.removeContract hfree hcond
  | fetch contract => exact hrep.fetchContract hfree contract
  | evict codeHash => exact hrep.evict codeHash
  | restart loads =>
    have hloads : loads = true := hcond
    subst hloads
    exact hrep.restart

omit [DecidableEq C] in
theorem empty_represents (hashing : Hashing C) : Represents hashing ⟨.empty, .empty⟩ := by
  constructor
  · intro contract hstor
    cases hstor
  · rintro id codeHash (hindex | hindex)
    · cases hindex
    · cases hindex
  · intro codeHash code hget
    cases hget
  · intro codeHash code hload
    cases hload
  · intro contract hgone
    cases hgone

end ContractHistory

/-- In a run without disturbances every stored instance is fetched, and no removed one. -/
theorem fetches_stored_of_undisturbed {hashing : Hashing C} (hfree : hashing.CollisionFree)
    {start h : ContractHistory C} (hstart : (contractStore hashing).init start)
    {calls : List (ContractCall C)}
    (hcalls : (contractStore hashing).Along (fun h call => call.Undisturbed hashing h) start calls)
    (hrun : (contractStore hashing).runFrom start calls = some h) : h.FetchesStored hashing := by
  have hrep : h.Represents hashing := by
    refine (contractStore hashing).invariant_of_along _
      (ContractHistory.Represents hashing) ?_ ?_ hcalls hrun
    · intro h call h' hrep hcond hstep
      cases hstep
      exact hrep.step hfree hcond
    · cases hstart
      exact ContractHistory.empty_represents hashing
  exact hrep.fetchesStored hfree

/-- Parameters as a number, by digits that are not zero. -/
def paramsNumber : Parameters → Nat
  | [] => 0
  | byte :: rest => byte.toNat + 1 + 257 * paramsNumber rest

theorem paramsNumber_injective : Function.Injective paramsNumber := by
  intro params
  induction params with
  | nil =>
    intro params' heq
    cases params' with
    | nil => rfl
    | cons byte' rest' =>
      unfold paramsNumber at heq
      omega
  | cons byte rest ih =>
    intro params' heq
    cases params' with
    | nil =>
      unfold paramsNumber at heq
      omega
    | cons byte' rest' =>
      unfold paramsNumber at heq
      have hbyte := byte.toNat_lt
      have hbyte' := byte'.toNat_lt
      rw [ih (show paramsNumber rest = paramsNumber rest' by omega),
        UInt8.toNat_inj.mp (show byte.toNat = byte'.toNat by omega)]

def plainHashing : Hashing Nat where
  codeHash code := code
  instanceId hash params := Nat.pair hash (paramsNumber params)

theorem plainHashing_collisionFree : plainHashing.CollisionFree where
  codeHash _ _ heq := heq
  instanceId _ _ _ _ heq := by
    obtain ⟨hhash, hparams⟩ := Nat.pair_eq_pair.mp heq
    exact ⟨hhash, paramsNumber_injective hparams⟩

/-- Two instances of one code are stored, and one of another code is stored and removed. -/
theorem sharing_instances_are_fetched : ∃ h, (contractStore plainHashing).runFrom ⟨.empty, .empty⟩
        [.store .reliable ⟨1, [1]⟩, .store .reliable ⟨1, [2]⟩, .store .reliable ⟨2, [1]⟩, .evict 2,
          .remove .reliable ⟨2, [1]⟩, .restart true] = some h ∧
      h.FetchesStored plainHashing ∧ h.standing.get ⟨1, [2]⟩ = some .stored ∧
      h.standing.get ⟨2, [1]⟩ = some .removed := by
  have hcalls : (contractStore plainHashing).Along
      (fun h call => call.Undisturbed plainHashing h) ⟨.empty, .empty⟩
      [.store .reliable ⟨1, [1]⟩, .store .reliable ⟨1, [2]⟩, .store .reliable ⟨2, [1]⟩, .evict 2,
        .remove .reliable ⟨2, [1]⟩, .restart true] := by
    refine (contractStore plainHashing).along_cons_of_step rfl ?_
      ((contractStore plainHashing).along_cons_of_step rfl ?_
        ((contractStore plainHashing).along_cons_of_step rfl ?_
          ((contractStore plainHashing).along_cons_of_step rfl trivial
            ((contractStore plainHashing).along_cons_of_step rfl ?_
              ((contractStore plainHashing).along_cons_of_step rfl rfl trivial)))))
    · rintro ⟨other, -, -, hget⟩
      cases hget
    · rintro ⟨other, -, -, hget⟩
      change (insert .empty _ stored).get other = some .removed at hget
      rw [get_insert] at hget
      split_ifs at hget <;> cases hget
    · rintro ⟨other, -, -, hget⟩
      change ((insert .empty _ stored).insert _ stored).get other = some .removed at hget
      rw [get_insert, get_insert] at hget
      split_ifs at hget <;> cases hget
    · intro _
      refine ⟨?_, by decide +kernel, fun _ => rfl⟩
      rintro ⟨other, hne, hcode, hget⟩
      change (((insert .empty ⟨1, [1]⟩ stored).insert ⟨1, [2]⟩ stored).insert
        ⟨2, [1]⟩ stored).get other = some .stored at hget
      rw [get_insert_of_ne hne, get_insert, get_insert] at hget
      split_ifs at hget with hsecond hfirst
      · rw [hsecond] at hcode
        cases hcode
      · rw [hfirst] at hcode
        cases hcode
      · cases hget
  exact ⟨_, rfl, fetches_stored_of_undisturbed plainHashing_collisionFree rfl hcalls rfl,
    by decide +kernel, by decide +kernel⟩

/-- The removal of one instance takes the code from the other one, and leaves its own in the
cache. -/
theorem removed_instance_is_fetched : (∃ h, (contractStore plainHashing).runFrom ⟨.empty, .empty⟩
        [.store .reliable ⟨1, [1]⟩, .store .reliable ⟨1, [2]⟩,
          .remove .reliable ⟨1, [1]⟩, .evict 1] = some h ∧
      h.standing.get ⟨1, [2]⟩ = some .stored ∧ (h.fetched plainHashing ⟨1, [2]⟩).1 = none ∧
      ¬ h.FetchesStored plainHashing) ∧ ∃ h, (contractStore plainHashing).runFrom ⟨.empty, .empty⟩
        [.store .reliable ⟨1, [1]⟩, .remove .reliable ⟨1, [1]⟩] = some h ∧
      h.standing.get ⟨1, [1]⟩ = some .removed ∧
      (h.fetched plainHashing ⟨1, [1]⟩).1 = some ⟨1, [1]⟩ ∧ ¬ h.FetchesStored plainHashing := by
  refine ⟨⟨_, rfl, by decide +kernel, by decide +kernel, fun hfetch => ?_⟩,
    ⟨_, rfl, by decide +kernel, by decide +kernel, fun hfetch => ?_⟩⟩
  · exact absurd ((hfetch ⟨1, [2]⟩).1 (by decide +kernel)) (by decide +kernel)
  · exact absurd ((hfetch ⟨1, [1]⟩).2 (by decide +kernel)) (by decide +kernel)

end Freenet.Contract
