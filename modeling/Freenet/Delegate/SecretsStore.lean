import Freenet.Delegate.Outbound

/-! The secrets of delegates: encrypted files with an index, and when they are a map of what was
stored. -/
namespace Freenet.Delegate
open Lib Table

/-- Secrets are known by the hash of their name. -/
abbrev SecretsId := Nat

inductive SecretStoreError where
  | encryption
  | io
  | missingCipher
  | missingSecret (key : SecretsId)
  | index
  deriving DecidableEq

/-- An authenticated cipher, under keys and nonces. -/
structure Aead (K N : Type*) where
  encrypt : K → N → List UInt8 → Option (List UInt8)
  decrypt : K → N → List UInt8 → Option (List UInt8)

def Aead.Correct {K N : Type*} (aead : Aead K N) : Prop :=
  ∀ cipher nonce plaintext ciphertext, aead.encrypt cipher nonce plaintext = some ciphertext →
    aead.decrypt cipher nonce ciphertext = some plaintext

/-- A cipher that only puts its key and nonce in front. -/
def labelling : Aead UInt8 UInt8 where
  encrypt cipher nonce plaintext := some (cipher :: nonce :: plaintext)
  decrypt cipher nonce
    | cipher' :: nonce' :: plaintext =>
      if cipher' = cipher ∧ nonce' = nonce then some plaintext else none
    | _ => none

theorem labelling_correct : labelling.Correct := by
  intro cipher nonce plaintext ciphertext hencr
  cases hencr
  simp [labelling]

structure Encryption (K N : Type*) where
  cipher : K
  nonce : N
  deriving DecidableEq

/-- How the file system and the database behave in one call. A write that fails may leave anything
in the file. -/
structure SecretIo where
  createFails : Bool
  writeFails : Bool
  written : List UInt8
  syncFails : Bool
  indexFails : Bool
  removeFails : Bool

def SecretIo.reliable : SecretIo := ⟨false, false, [], false, false, false⟩

structure SecretsStore (K N : Type*) where
  ciphers : Table DelegateKey (Encryption K N)
  keyToSecretPart : Table DelegateKey (Finset SecretsId)
  db : Table DelegateKey (Finset SecretsId)
  files : Table (DelegateKey × SecretsId) (List UInt8)
  defaultEncryption : Encryption K N

namespace SecretsStore
variable {K N : Type*} [DecidableEq N]

def empty (defaultEncryption : Encryption K N) : SecretsStore K N :=
  ⟨.empty, .empty, .empty, .empty, defaultEncryption⟩

variable (store : SecretsStore K N) (aead : Aead K N) (io : SecretIo) (delegate : DelegateKey)
  (key : SecretsId) (plaintext : List UInt8)

def registerDelegate (cipher : K) (nonce : N) : SecretsStore K N :=
  if nonce ≠ store.defaultEncryption.nonce then
    { store with ciphers := store.ciphers.insert delegate ⟨cipher, nonce⟩ }
  else store

def removeDelegateCipher : SecretsStore K N :=
  { store with ciphers := store.ciphers.remove delegate }

def encryptionOf : Encryption K N := (store.ciphers.get delegate).getD store.defaultEncryption

def cipherError (encryption : Encryption K N) : SecretStoreError :=
  if encryption.nonce = store.defaultEncryption.nonce then .missingCipher else .encryption

def updateIndex : Except SecretStoreError Unit × SecretsStore K N :=
  let currentSecrets := insert key ((store.keyToSecretPart.get delegate).getD ∅)
  if io.indexFails then (.error .index, store)
  else (.ok (), { store with
    db := store.db.insert delegate currentSecrets
    keyToSecretPart := store.keyToSecretPart.insert delegate currentSecrets })

def storeSecret : Except SecretStoreError Unit × SecretsStore K N :=
  let encryption := store.encryptionOf delegate
  match aead.encrypt encryption.cipher encryption.nonce plaintext with
  | none => (.error (store.cipherError encryption), store)
  | some ciphertext =>
    if io.createFails then (.error .io, store)
    else if io.writeFails then
      (.error .io, { store with files := store.files.insert (delegate, key) io.written })
    else
      let store := { store with files := store.files.insert (delegate, key) ciphertext }
      if io.syncFails then (.error .io, store) else store.updateIndex io delegate key

def removeSecret : Except SecretStoreError Unit × SecretsStore K N :=
  if io.removeFails then (.error .io, store)
  else (.ok (), { store with files := store.files.remove (delegate, key) })

def getSecret : Except SecretStoreError (List UInt8) :=
  let encryption := store.encryptionOf delegate
  match store.files.get (delegate, key) with
  | none => .error (.missingSecret key)
  | some ciphertext =>
    match aead.decrypt encryption.cipher encryption.nonce ciphertext with
    | some plaintext => .ok plaintext
    | none => .error (store.cipherError encryption)

def indexed : Finset SecretsId := (store.keyToSecretPart.get delegate).getD ∅

def persisted : Finset SecretsId := (store.db.get delegate).getD ∅

theorem storeSecret_cases :
    ∃ files db keyToSecretPart, (store.storeSecret aead io delegate key plaintext).2 =
      { store with files := files, db := db, keyToSecretPart := keyToSecretPart } := by
  unfold storeSecret updateIndex
  dsimp only
  split
  · exact ⟨_, _, _, rfl⟩
  · split_ifs <;> exact ⟨_, _, _, rfl⟩

end SecretsStore

inductive SecretCall (K N : Type*) where
  | registerDelegate (delegate : DelegateKey) (cipher : K) (nonce : N)
  | removeDelegateCipher (delegate : DelegateKey)
  | storeSecret (io : SecretIo) (delegate : DelegateKey) (key : SecretsId) (plaintext : List UInt8)
  | removeSecret (io : SecretIo) (delegate : DelegateKey) (key : SecretsId)
  | getSecret (delegate : DelegateKey) (key : SecretsId)

variable {K N : Type*} [DecidableEq N]

/-- The store, and the secrets that were stored and not removed since. -/
structure SecretHistory (K N : Type*) where
  store : SecretsStore K N
  last : Table (DelegateKey × SecretsId) (List UInt8)

namespace SecretHistory
variable (aead : Aead K N) (h : SecretHistory K N)

def step : SecretCall K N → SecretHistory K N
  | .registerDelegate delegate cipher nonce =>
    { h with store := h.store.registerDelegate delegate cipher nonce }
  | .removeDelegateCipher delegate => { h with store := h.store.removeDelegateCipher delegate }
  | .storeSecret io delegate key plaintext =>
    match h.store.storeSecret aead io delegate key plaintext with
    | (.ok _, store) => ⟨store, h.last.insert (delegate, key) plaintext⟩
    | (.error _, store) => { h with store := store }
  | .removeSecret io delegate key =>
    match h.store.removeSecret io delegate key with
    | (.ok _, store) => ⟨store, h.last.remove (delegate, key)⟩
    | (.error _, store) => { h with store := store }
  | .getSecret _ _ => h

/-- Reading a secret returns what was stored last, and both indices list exactly these secrets. -/
structure Refines : Prop where
  read : ∀ delegate key, (h.store.getSecret aead delegate key).toOption = h.last.get (delegate, key)
  indexed : ∀ delegate key, key ∈ h.store.indexed delegate ↔ (h.last.get (delegate, key)).isSome = true
  persisted : ∀ delegate key, key ∈ h.store.persisted delegate ↔ (h.last.get (delegate, key)).isSome = true

def NoSecrets (delegate : DelegateKey) : Prop := ∀ key, h.last.get (delegate, key) = none

end SecretHistory

/-- Runs of a store that starts without secrets. -/
def secretsStore (aead : Aead K N) : Machine (SecretHistory K N) (SecretCall K N) where
  init h := ∃ encryption, h = ⟨.empty encryption, .empty⟩
  step h call := some (h.step aead call)

def SecretCall.Harmless (h : SecretHistory K N) : SecretCall K N → Prop
  | .registerDelegate delegate cipher nonce =>
    nonce = h.store.defaultEncryption.nonce ∨ h.store.encryptionOf delegate = ⟨cipher, nonce⟩ ∨
      h.NoSecrets delegate
  | .removeDelegateCipher delegate =>
    h.store.encryptionOf delegate = h.store.defaultEncryption ∨ h.NoSecrets delegate
  | .storeSecret io _ _ _ =>
    io.createFails = true ∨ io.writeFails = false ∧ io.syncFails = false ∧ io.indexFails = false
  | .removeSecret io delegate key => io.removeFails = true ∨ h.last.get (delegate, key) = none
  | .getSecret _ _ => True

namespace SecretHistory

/-- Every secret is in a file under the encryption in force, and in both indices. -/
structure Represents (aead : Aead K N) (h : SecretHistory K N) : Prop where
  stored : ∀ delegate key plaintext, h.last.get (delegate, key) = some plaintext →
    ∃ ciphertext, h.store.files.get (delegate, key) = some ciphertext ∧
      aead.encrypt (h.store.encryptionOf delegate).cipher (h.store.encryptionOf delegate).nonce
        plaintext = some ciphertext
  absent : ∀ delegate key, h.last.get (delegate, key) = none → h.store.files.get (delegate, key) = none
  indexed : ∀ delegate key, key ∈ h.store.indexed delegate ↔ (h.last.get (delegate, key)).isSome = true
  persisted : ∀ delegate key, key ∈ h.store.persisted delegate ↔ (h.last.get (delegate, key)).isSome = true

variable {aead : Aead K N} {h : SecretHistory K N} {io : SecretIo} {delegate : DelegateKey}
  {key : SecretsId} {plaintext : List UInt8} (hrep : h.Represents aead)
include hrep

theorem Represents.refines (haead : aead.Correct) : h.Refines aead := by
  refine ⟨?_, hrep.indexed, hrep.persisted⟩
  intro delegate key
  unfold SecretsStore.getSecret
  cases hlast : h.last.get (delegate, key) with
  | none =>
    rw [hrep.absent delegate key hlast]
    rfl
  | some plaintext =>
    obtain ⟨ciphertext, hfile, hencr⟩ := hrep.stored delegate key plaintext hlast
    rw [hfile]
    dsimp only
    rw [haead _ _ _ _ hencr]
    rfl

omit [DecidableEq N] in
theorem Represents.of_ciphers {ciphers : Table DelegateKey (Encryption K N)}
    (hothers : ∀ delegate' ≠ delegate, ciphers.get delegate' = h.store.ciphers.get delegate')
    (hown : ({ h.store with ciphers := ciphers } : SecretsStore K N).encryptionOf delegate =
      h.store.encryptionOf delegate ∨ h.NoSecrets delegate) :
    ({ h with store := { h.store with ciphers := ciphers } } : SecretHistory K N).Represents aead where
  stored delegate' key plaintext hlast := by
    by_cases hdeleg : delegate' = delegate
    · subst hdeleg
      rcases hown with hsame | hnone
      · rw [hsame]
        exact hrep.stored delegate' key plaintext hlast
      · cases (hnone key).symm.trans hlast
    · rw [SecretsStore.encryptionOf, hothers delegate' hdeleg]
      exact hrep.stored delegate' key plaintext hlast
  absent := hrep.absent
  indexed := hrep.indexed
  persisted := hrep.persisted

theorem Represents.registerDelegate {cipher : K} {nonce : N}
    (hcall : (SecretCall.registerDelegate delegate cipher nonce).Harmless h) :
    (h.step aead (.registerDelegate delegate cipher nonce)).Represents aead := by
  unfold step SecretsStore.registerDelegate
  dsimp only
  split_ifs with hnonce
  · refine hrep.of_ciphers (fun _ => get_insert_of_ne) ?_
    refine (hcall.resolve_left hnonce).imp_left fun hsame => ?_
    rw [hsame]
    simp [SecretsStore.encryptionOf]
  · exact hrep

theorem Represents.removeDelegateCipher
    (hcall : (SecretCall.removeDelegateCipher delegate).Harmless h) :
    (h.step aead (.removeDelegateCipher delegate)).Represents aead := by
  refine hrep.of_ciphers (fun _ => get_remove_of_ne) (hcall.imp_left fun hsame => ?_)
  rw [hsame]
  simp [SecretsStore.encryptionOf]

omit [DecidableEq N] in
/-- Both indices get the secret; the one in the database is written from the one in memory. -/
theorem Represents.storedSecret {ciphertext : List UInt8}
    (hencr : aead.encrypt (h.store.encryptionOf delegate).cipher
      (h.store.encryptionOf delegate).nonce plaintext = some ciphertext) :
    (⟨{ h.store with
        files := h.store.files.insert (delegate, key) ciphertext
        db := h.store.db.insert delegate (insert key (h.store.indexed delegate))
        keyToSecretPart :=
          h.store.keyToSecretPart.insert delegate (insert key (h.store.indexed delegate)) },
      h.last.insert (delegate, key) plaintext⟩ : SecretHistory K N).Represents aead := by
  have hlist : ∀ delegate' key', ((h.last.insert (delegate, key) plaintext).get
      (delegate', key')).isSome = true ↔
        (delegate', key') = (delegate, key) ∨ (h.last.get (delegate', key')).isSome = true := by
    intro delegate' key'
    rw [get_insert]
    by_cases hname : (delegate', key') = (delegate, key)
    · simp [hname]
    · simp [hname]
  constructor
  · intro delegate' key' plaintext' hlast
    rw [get_insert] at hlast ⊢
    by_cases hname : (delegate', key') = (delegate, key)
    · rw [if_pos hname] at hlast ⊢
      cases hlast
      cases hname
      exact ⟨ciphertext, rfl, hencr⟩
    · rw [if_neg hname] at hlast ⊢
      exact hrep.stored delegate' key' plaintext' hlast
  · intro delegate' key' hlast
    rw [get_insert] at hlast ⊢
    by_cases hname : (delegate', key') = (delegate, key)
    · rw [if_pos hname] at hlast
      cases hlast
    · rw [if_neg hname] at hlast ⊢
      exact hrep.absent delegate' key' hlast
  · intro delegate' key'
    rw [hlist, ← hrep.indexed]
    dsimp only [SecretsStore.indexed]
    rw [get_insert]
    by_cases hdeleg : delegate' = delegate
    · simp [hdeleg]
    · simp [hdeleg]
  · intro delegate' key'
    rw [hlist]
    dsimp only [SecretsStore.persisted]
    rw [get_insert]
    by_cases hdeleg : delegate' = delegate
    · rw [hdeleg, ← hrep.indexed]
      simp [SecretsStore.indexed]
    · rw [← hrep.persisted]
      simp [hdeleg, SecretsStore.persisted]

theorem Represents.storeSecret
    (hcall : (SecretCall.storeSecret (K := K) (N := N) io delegate key plaintext).Harmless h) :
    (h.step aead (.storeSecret io delegate key plaintext)).Represents aead := by
  unfold step SecretsStore.storeSecret
  dsimp only
  cases hencr : aead.encrypt (h.store.encryptionOf delegate).cipher
      (h.store.encryptionOf delegate).nonce plaintext with
  | none => exact hrep
  | some ciphertext =>
    dsimp only
    by_cases hcreate : io.createFails = true
    · rw [if_pos hcreate]
      exact hrep
    · rcases hcall with hfails | ⟨hwrite, hsync, hindex⟩
      · exact absurd hfails hcreate
      · rw [if_neg hcreate, hwrite, hsync]
        dsimp only [SecretsStore.updateIndex]
        rw [hindex]
        exact hrep.storedSecret hencr

theorem Represents.removeSecret
    (hcall : (SecretCall.removeSecret (K := K) (N := N) io delegate key).Harmless h) :
    (h.step aead (.removeSecret io delegate key)).Represents aead := by
  unfold step SecretsStore.removeSecret
  dsimp only
  by_cases hfails : io.removeFails = true
  · rw [if_pos hfails]
    exact hrep
  · rcases hcall with hremove | hnone
    · exact absurd hremove hfails
    · rw [if_neg hfails]
      rw [remove_of_get hnone, remove_of_get (hrep.absent delegate key hnone)]
      exact hrep

theorem Represents.step {call : SecretCall K N} (hcall : call.Harmless h) :
    (h.step aead call).Represents aead := by
  cases call with
  | registerDelegate delegate cipher nonce => exact hrep.registerDelegate hcall
  | removeDelegateCipher delegate => exact hrep.removeDelegateCipher hcall
  | storeSecret io delegate key plaintext => exact hrep.storeSecret hcall
  | removeSecret io delegate key => exact hrep.removeSecret hcall
  | getSecret delegate key => exact hrep

omit [DecidableEq N] hrep in
theorem empty_represents (encryption : Encryption K N) :
    (⟨.empty encryption, .empty⟩ : SecretHistory K N).Represents aead where
  stored delegate key plaintext hlast := by simp at hlast
  absent delegate key _ := rfl
  indexed delegate key := by simp [SecretsStore.indexed, SecretsStore.empty]
  persisted delegate key := by simp [SecretsStore.persisted, SecretsStore.empty]

end SecretHistory

/-- In every run in which a delegate with secrets keeps its encryption, no write breaks off and no
stored secret is removed, a read returns what was stored last, and both indices list exactly the
stored secrets. -/
theorem secrets_refine_of_harmless {aead : Aead K N} (haead : aead.Correct)
    {start h : SecretHistory K N} (hstart : (secretsStore aead).init start)
    {calls : List (SecretCall K N)}
    (hcalls : (secretsStore aead).Along (fun h call => call.Harmless h) start calls)
    (hrun : (secretsStore aead).runFrom start calls = some h) : h.Refines aead := by
  have hrep : h.Represents aead := by
    refine (secretsStore aead).invariant_of_along _ (SecretHistory.Represents aead) ?_ ?_ hcalls hrun
    · intro h call h' hrep hcall hstep
      cases hstep
      exact hrep.step hcall
    · obtain ⟨encryption, rfl⟩ := hstart
      exact SecretHistory.empty_represents encryption
  exact hrep.refines haead

/-- A delegate registers, and its secret is read back. -/
theorem registered_secret_is_read : ∃ h, (secretsStore labelling).runFrom ⟨.empty ⟨0, 0⟩, .empty⟩
        [.registerDelegate 7 1 1, .storeSecret .reliable 7 5 [42]] = some h ∧
      h.Refines labelling ∧ (h.store.getSecret labelling 7 5).toOption = some [42] := by
  have hstart : (secretsStore labelling).init ⟨.empty ⟨0, 0⟩, .empty⟩ := ⟨⟨0, 0⟩, rfl⟩
  have hcalls : (secretsStore labelling).Along (fun h call => call.Harmless h)
      ⟨.empty ⟨0, 0⟩, .empty⟩ [.registerDelegate 7 1 1, .storeSecret .reliable 7 5 [42]] := by
    refine (secretsStore labelling).along_cons_of_step rfl (.inr (.inr fun _ => rfl))
      ((secretsStore labelling).along_cons_of_step rfl (.inr ⟨rfl, rfl, rfl⟩) trivial)
  exact ⟨_, rfl, secrets_refine_of_harmless labelling_correct hstart hcalls rfl, by decide +kernel⟩

/-- A secret that was removed is still in both indices. And a secret of a delegate that registers
another encryption cannot be read any more. -/
theorem removed_secret_is_indexed :
    labelling.Correct ∧ (secretsStore labelling).init ⟨.empty ⟨0, 0⟩, .empty⟩ ∧
    (∃ h, (secretsStore labelling).runFrom ⟨.empty ⟨0, 0⟩, .empty⟩
        [.storeSecret .reliable 7 5 [42], .removeSecret .reliable 7 5] = some h ∧
      h.last.get (7, 5) = none ∧ 5 ∈ h.store.indexed 7 ∧ 5 ∈ h.store.persisted 7 ∧
      ¬ h.Refines labelling) ∧ ∃ h, (secretsStore labelling).runFrom ⟨.empty ⟨0, 0⟩, .empty⟩
        [.storeSecret .reliable 7 5 [42], .registerDelegate 7 1 1] = some h ∧
      h.last.get (7, 5) = some [42] ∧ (h.store.getSecret labelling 7 5).toOption = none ∧
      ¬ h.Refines labelling := by
  have hstart : (secretsStore labelling).init ⟨.empty ⟨0, 0⟩, .empty⟩ := ⟨⟨0, 0⟩, rfl⟩
  refine ⟨labelling_correct, hstart, ⟨_, rfl, by decide +kernel, by decide +kernel,
    by decide +kernel, ?_⟩, ⟨_, rfl, by decide +kernel, by decide +kernel, ?_⟩⟩
  · intro hrefin
    have hidx := hrefin.indexed 7 5
    revert hidx
    decide +kernel
  · intro hrefin
    have hread := hrefin.read 7 5
    revert hread
    decide +kernel

/-! Under which key and nonce secrets are encrypted; a delegate's nonce is that of its
registration. -/
open List SecretsStore

/-- The store with its history: what was encrypted under which key and nonce, the registered
encryptions, and the last plaintext encrypted by each delegate since it registered, and under the
default encryption. -/
structure NonceHistory (K N : Type*) where
  store : SecretsStore K N
  encrypted : List (Encryption K N × List UInt8)
  registered : List (Encryption K N)
  spent : Table DelegateKey (List UInt8)
  defaultSpent : Option (List UInt8)

namespace NonceHistory
variable (aead : Aead K N) (h : NonceHistory K N)

def register (delegate : DelegateKey) (cipher : K) (nonce : N) : NonceHistory K N :=
  if nonce = h.store.defaultEncryption.nonce then h
  else { h with
    store := h.store.registerDelegate delegate cipher nonce
    registered := ⟨cipher, nonce⟩ :: h.registered
    spent := h.spent.remove delegate }

def encrypt (io : SecretIo) (delegate : DelegateKey) (key : SecretsId) (plaintext : List UInt8) :
    NonceHistory K N :=
  let h := { h with
    store := (h.store.storeSecret aead io delegate key plaintext).2
    encrypted := (h.store.encryptionOf delegate, plaintext) :: h.encrypted }
  match h.store.ciphers.get delegate with
  | some _ => { h with spent := h.spent.insert delegate plaintext }
  | none => { h with defaultSpent := some plaintext }

def step : SecretCall K N → NonceHistory K N
  | .registerDelegate delegate cipher nonce => h.register delegate cipher nonce
  | .removeDelegateCipher delegate => { h with store := h.store.removeDelegateCipher delegate }
  | .storeSecret io delegate key plaintext => h.encrypt aead io delegate key plaintext
  | .removeSecret io delegate key => { h with store := (h.store.removeSecret io delegate key).2 }
  | .getSecret _ _ => h

/-- No two different plaintexts were encrypted under the same key and nonce. -/
def NoReuse : Prop := ∀ e ∈ h.encrypted, ∀ e' ∈ h.encrypted, e.1 = e'.1 → e.2 = e'.2

end NonceHistory

def nonces (aead : Aead K N) : Machine (NonceHistory K N) (SecretCall K N) where
  init h := h.store.ciphers = .empty ∧ h.encrypted = [] ∧ h.registered = [] ∧ h.spent = .empty ∧
    h.defaultSpent = none
  step h call := some (h.step aead call)

def SecretCall.SpendsOnce (h : NonceHistory K N) : SecretCall K N → Prop
  | .registerDelegate _ cipher nonce =>
    nonce = h.store.defaultEncryption.nonce ∨ ⟨cipher, nonce⟩ ∉ h.registered
  | .storeSecret _ delegate _ plaintext =>
    match h.store.ciphers.get delegate with
    | some _ => h.spent.get delegate = none ∨ h.spent.get delegate = some plaintext
    | none => h.defaultSpent = none ∨ h.defaultSpent = some plaintext
  | _ => True

namespace NonceHistory

structure Sound (h : NonceHistory K N) : Prop where
  noReuse : h.NoReuse
  known : ∀ e ∈ h.encrypted, e.1 = h.store.defaultEncryption ∨ e.1 ∈ h.registered
  registered : ∀ delegate encryption, h.store.ciphers.get delegate = some encryption →
    encryption ∈ h.registered
  distinct : ∀ encryption ∈ h.registered, encryption.nonce ≠ h.store.defaultEncryption.nonce
  own : ∀ delegate delegate' encryption, h.store.ciphers.get delegate = some encryption →
    h.store.ciphers.get delegate' = some encryption → delegate = delegate'
  spent : ∀ delegate encryption, h.store.ciphers.get delegate = some encryption →
    ∀ e ∈ h.encrypted, e.1 = encryption → h.spent.get delegate = some e.2
  defaultSpent : ∀ e ∈ h.encrypted, e.1 = h.store.defaultEncryption → h.defaultSpent = some e.2

variable {aead : Aead K N} {h : NonceHistory K N} {io : SecretIo} {delegate : DelegateKey}
  {key : SecretsId} {plaintext : List UInt8} {encryption : Encryption K N}

omit [DecidableEq N] in
theorem Sound.ne_default (hsound : h.Sound)
    (hmem : encryption ∈ h.registered) : encryption ≠ h.store.defaultEncryption := by
  intro heq
  exact hsound.distinct encryption hmem (by rw [heq])

theorem Sound.register {cipher : K} {nonce : N} (hsound : h.Sound)
    (hcall : (SecretCall.registerDelegate delegate cipher nonce).SpendsOnce h) :
    (h.register delegate cipher nonce).Sound := by
  unfold NonceHistory.register registerDelegate
  by_cases hnonce : nonce = h.store.defaultEncryption.nonce
  · rw [if_pos hnonce]
    exact hsound
  rw [if_neg hnonce, if_pos hnonce]
  have hfresh : (⟨cipher, nonce⟩ : Encryption K N) ∉ h.registered := by
    rcases hcall with hdflt | hfresh
    · exact absurd hdflt hnonce
    · exact hfresh
  have hunus : ∀ e ∈ h.encrypted, e.1 ≠ ⟨cipher, nonce⟩ := by
    intro e he heq
    rcases hsound.known e he with hdflt | hmem
    · apply hnonce
      rw [← hdflt, heq]
    · rw [heq] at hmem
      exact hfresh hmem
  exact { hsound with
    known e he := (hsound.known e he).imp_right (mem_cons_of_mem _)
    registered delegate' encryption hget := by
      rcases get_insert_cases hget with ⟨-, rfl⟩ | ⟨-, hget⟩
      · exact mem_cons_self
      · exact mem_cons_of_mem _ (hsound.registered delegate' encryption hget)
    distinct := forall_mem_cons.mpr ⟨hnonce, hsound.distinct⟩
    own delegate₁ delegate₂ encryption hget₁ hget₂ := by
      rw [get_insert] at hget₁ hget₂
      split_ifs at hget₁ hget₂ with h₁ h₂ h₂
      · rw [h₁, h₂]
      · cases hget₁
        exact absurd (hsound.registered delegate₂ _ hget₂) hfresh
      · cases hget₂
        exact absurd (hsound.registered delegate₁ _ hget₁) hfresh
      · exact hsound.own delegate₁ delegate₂ encryption hget₁ hget₂
    spent delegate' encryption hget e he heq := by
      rcases get_insert_cases hget with ⟨-, rfl⟩ | ⟨hdeleg, hget⟩
      · exact absurd heq (hunus e he)
      · exact (get_remove_of_ne hdeleg).trans (hsound.spent delegate' encryption hget e he heq) }

omit [DecidableEq N] in
theorem Sound.removeCipher (hsound : h.Sound) :
    ({ h with store := h.store.removeDelegateCipher delegate } : NonceHistory K N).Sound := by
  exact { hsound with
    registered d encryption hget := hsound.registered d encryption (get_of_get_remove hget).2
    own d₁ d₂ encryption h₁ h₂ :=
      hsound.own d₁ d₂ encryption (get_of_get_remove h₁).2 (get_of_get_remove h₂).2
    spent d encryption hget := hsound.spent d encryption (get_of_get_remove hget).2 }

omit [DecidableEq N] in
theorem Sound.of_store {store : SecretsStore K N} (hsound : h.Sound)
    (hciph : store.ciphers = h.store.ciphers)
    (hdflt : store.defaultEncryption = h.store.defaultEncryption) :
    ({ h with store := store } : NonceHistory K N).Sound := by
  constructor
  · exact hsound.noReuse
  · rw [hdflt]
    exact hsound.known
  · rw [hciph]
    exact hsound.registered
  · rw [hdflt]
    exact hsound.distinct
  · rw [hciph]
    exact hsound.own
  · rw [hciph]
    exact hsound.spent
  · rw [hdflt]
    exact hsound.defaultSpent

omit [DecidableEq N] in
theorem NoReuse.cons (hno : h.NoReuse)
    (hsame : ∀ e ∈ h.encrypted, e.1 = encryption → e.2 = plaintext) :
    ({ h with encrypted := (encryption, plaintext) :: h.encrypted } : NonceHistory K N).NoReuse := by
  intro e he e' he' heq
  rcases mem_cons.mp he with rfl | he
  · rcases mem_cons.mp he' with rfl | he'
    · rfl
    · exact (hsame e' he' heq.symm).symm
  · rcases mem_cons.mp he' with rfl | he'
    · exact hsame e he heq
    · exact hno e he e' he' heq

omit [DecidableEq N] in
theorem Sound.encryptOwn (hsound : h.Sound) (hget : h.store.ciphers.get delegate = some encryption)
    (hspent : h.spent.get delegate = none ∨ h.spent.get delegate = some plaintext) :
    ({ h with
      encrypted := (encryption, plaintext) :: h.encrypted
      spent := h.spent.insert delegate plaintext } : NonceHistory K N).Sound := by
  have hreg := hsound.registered delegate encryption hget
  have hsame : ∀ e ∈ h.encrypted, e.1 = encryption → e.2 = plaintext := by
    intro e he heq
    have hlast := hsound.spent delegate encryption hget e he heq
    rcases hspent with hnone | hsome
    · cases hnone.symm.trans hlast
    · exact Option.some.inj (hlast.symm.trans hsome)
  exact { hsound with
    noReuse := hsound.noReuse.cons hsame
    known := forall_mem_cons.mpr ⟨.inr hreg, hsound.known⟩
    spent delegate' encryption' hget' e he heq := by
      rw [get_insert]
      split_ifs with hdeleg
      · rw [hdeleg] at hget'
        cases hget.symm.trans hget'
        rcases mem_cons.mp he with rfl | he
        · rfl
        · rw [hsame e he heq]
      · rcases mem_cons.mp he with rfl | he
        · cases heq
          exact absurd (hsound.own delegate' delegate encryption hget' hget) hdeleg
        · exact hsound.spent delegate' encryption' hget' e he heq
    defaultSpent :=
      forall_mem_cons.mpr ⟨fun heq => absurd heq (hsound.ne_default hreg), hsound.defaultSpent⟩ }

omit [DecidableEq N] in
theorem Sound.encryptDefault (hsound : h.Sound)
    (hspent : h.defaultSpent = none ∨ h.defaultSpent = some plaintext) :
    ({ h with
      encrypted := (h.store.defaultEncryption, plaintext) :: h.encrypted
      defaultSpent := some plaintext } : NonceHistory K N).Sound := by
  have hsame : ∀ e ∈ h.encrypted, e.1 = h.store.defaultEncryption → e.2 = plaintext := by
    intro e he heq
    have hlast := hsound.defaultSpent e he heq
    rcases hspent with hnone | hsome
    · cases hnone.symm.trans hlast
    · exact Option.some.inj (hlast.symm.trans hsome)
  exact { hsound with
    noReuse := hsound.noReuse.cons hsame
    known := forall_mem_cons.mpr ⟨.inl rfl, hsound.known⟩
    spent delegate' encryption' hget' := forall_mem_cons.mpr
      ⟨fun heq => absurd heq.symm (hsound.ne_default (hsound.registered delegate' _ hget')),
        hsound.spent delegate' encryption' hget'⟩
    defaultSpent := forall_mem_cons.mpr ⟨fun _ => rfl, fun e he heq => by rw [hsame e he heq]⟩ }

theorem Sound.encrypt (hsound : h.Sound)
    (hcall : (SecretCall.storeSecret (K := K) (N := N) io delegate key plaintext).SpendsOnce h) :
    (h.encrypt aead io delegate key plaintext).Sound := by
  obtain ⟨files, db, keyToSecretPart, hstore⟩ :=
    h.store.storeSecret_cases aead io delegate key plaintext
  unfold NonceHistory.encrypt
  rw [hstore]
  dsimp only
  dsimp only [SecretCall.SpendsOnce] at hcall
  cases hget : h.store.ciphers.get delegate with
  | some encryption =>
    rw [hget] at hcall
    have hown : h.store.encryptionOf delegate = encryption := by
      simp [encryptionOf, hget]
    rw [hown]
    exact (hsound.encryptOwn hget hcall).of_store rfl rfl
  | none =>
    rw [hget] at hcall
    have hdflt : h.store.encryptionOf delegate = h.store.defaultEncryption := by
      simp [encryptionOf, hget]
    rw [hdflt]
    exact (hsound.encryptDefault hcall).of_store rfl rfl

theorem Sound.step {call : SecretCall K N} (hsound : h.Sound) (hcall : call.SpendsOnce h) :
    (h.step aead call).Sound := by
  cases call with
  | registerDelegate delegate cipher nonce => exact hsound.register hcall
  | removeDelegateCipher delegate => exact hsound.removeCipher
  | storeSecret io delegate key plaintext => exact hsound.encrypt hcall
  | removeSecret io delegate key =>
    unfold NonceHistory.step removeSecret
    dsimp only
    split_ifs
    · exact hsound
    · exact hsound.of_store rfl rfl
  | getSecret delegate key => exact hsound

end NonceHistory

/-- In every run in which each registration brings a new key and nonce, and each registration, like
the default encryption, is used for one plaintext only, no two plaintexts are encrypted under one
key and nonce. -/
theorem no_reuse_of_spendsOnce {aead : Aead K N} {start h : NonceHistory K N}
    (hstart : (nonces aead).init start) {calls : List (SecretCall K N)}
    (hcalls : (nonces aead).Along (fun h call => call.SpendsOnce h) start calls)
    (hrun : (nonces aead).runFrom start calls = some h) : h.NoReuse := by
  have hsound : h.Sound := by
    refine (nonces aead).invariant_of_along _ NonceHistory.Sound ?_ ?_ hcalls hrun
    · intro h call h' hsound hcall hstep
      cases hstep
      exact hsound.step hcall
    · obtain ⟨hciph, hencrypted, hreg, hspent, hdflt⟩ := hstart
      constructor
      · simp [NonceHistory.NoReuse, hencrypted]
      · simp [hencrypted]
      · simp [hciph]
      · simp [hreg]
      · simp [hciph]
      · simp [hciph]
      · simp [hencrypted]
  exact hsound.noReuse

/-- A delegate registers a new nonce for each secret. -/
theorem new_nonce_for_each_secret :
    ∃ h, (nonces labelling).runFrom ⟨.empty ⟨0, 0⟩, [], [], .empty, none⟩
        [.registerDelegate 7 1 1, .storeSecret .reliable 7 5 [42], .registerDelegate 7 1 2,
          .storeSecret .reliable 7 6 [43]] = some h ∧
      h.encrypted = [(⟨1, 2⟩, [43]), (⟨1, 1⟩, [42])] ∧ h.NoReuse := by
  have hcalls : (nonces labelling).Along (fun h call => call.SpendsOnce h)
      ⟨.empty ⟨0, 0⟩, [], [], .empty, none⟩
      [.registerDelegate 7 1 1, .storeSecret .reliable 7 5 [42], .registerDelegate 7 1 2,
        .storeSecret .reliable 7 6 [43]] := by
    refine (nonces labelling).along_cons_of_step rfl (.inr not_mem_nil)
      ((nonces labelling).along_cons_of_step rfl (.inl rfl)
        ((nonces labelling).along_cons_of_step rfl (.inr ?_)
          ((nonces labelling).along_cons_of_step rfl (.inl rfl) trivial)))
    decide +kernel
  exact ⟨_, rfl, by decide +kernel, no_reuse_of_spendsOnce ⟨rfl, rfl, rfl, rfl, rfl⟩ hcalls rfl⟩

/-- A delegate stores two secrets: both are encrypted under the nonce of its registration. -/
theorem two_secrets_under_one_nonce : (nonces labelling).init ⟨.empty ⟨0, 0⟩, [], [], .empty, none⟩ ∧
    ∃ h, (nonces labelling).runFrom ⟨.empty ⟨0, 0⟩, [], [], .empty, none⟩
        [.registerDelegate 7 1 1, .storeSecret .reliable 7 5 [42],
          .storeSecret .reliable 7 6 [43]] = some h ∧
      h.encrypted = [(⟨1, 1⟩, [43]), (⟨1, 1⟩, [42])] ∧ ¬ h.NoReuse := by
  refine ⟨⟨rfl, rfl, rfl, rfl, rfl⟩, _, rfl, by decide +kernel, ?_⟩
  unfold NonceHistory.NoReuse
  decide +kernel

end Freenet.Delegate
