import Freenet.Lib.Outcome
import Freenet.Lib.Table

/-! Connection states by remote address, with the rate limits of a gateway. Times are
nanoseconds. -/
namespace Freenet.Transport
open Lib

inductive IpAddr where
  | v4 (octets : BitVec 32)
  | v6 (octets : BitVec 128)
  deriving DecidableEq, Repr

structure SocketAddr where
  ip : IpAddr
  port : BitVec 16
  deriving DecidableEq, Repr

/-- Sender half of a bounded packet channel, named by the channel. -/
abbrev FastSender := Nat

/-- Sender half of the one-shot channel on which a connection attempt is answered. -/
abbrev ResultSender := Nat

inductive ChannelStatus where
  | open
  | full
  | disconnected
  deriving DecidableEq, Repr

def nanosPerSec : Nat := 1000000000
def asymDecryptionRateLimit : Nat := 1 * nanosPerSec
def rateLimitCleanupInterval : Nat := 60 * nanosPerSec
def recentlyClosedDuration : Nat := 2 * nanosPerSec
def outdatedPeerExpiry : Nat := 600 * nanosPerSec

inductive ConnectionState where
  | gatewayHandshake (packetSender : FastSender)
  | natTraversal (packetSender : FastSender) (resultSender : ResultSender)
  | established (inboundPacketSender : FastSender)
  | recentlyClosed (closedAtNanos : Nat)
  deriving DecidableEq, Repr

structure ConnectionStateManager where
  states : Table SocketAddr ConnectionState
  lastAsymAttempt : Table SocketAddr Nat

namespace ConnectionStateManager
variable (m : ConnectionStateManager)

def new : ConnectionStateManager := ⟨Table.empty, Table.empty⟩

def getState (addr : SocketAddr) : Option ConnectionState := m.states.get addr

def hasGatewayHandshake (addr : SocketAddr) : Bool :=
  match m.getState addr with
  | some (.gatewayHandshake _) => true
  | _ => false

def hasNatTraversal (addr : SocketAddr) : Bool :=
  match m.getState addr with
  | some (.natTraversal _ _) => true
  | _ => false

/-- Only an established connection enters the grace period. -/
def markClosed (addr : SocketAddr) (now : Nat) : ConnectionStateManager :=
  match m.getState addr with
  | some (.established _) => { m with states := m.states.insert addr (.recentlyClosed now) }
  | _ => { m with states := m.states.remove addr }

def trySendEstablished (addr : SocketAddr) (status : FastSender → ChannelStatus) (now : Nat) :
    ConnectionStateManager × Option Bool :=
  match m.getState addr with
  | some (.established sender) =>
    match status sender with
    | .open => (m, some true)
    | .full => (m, some false)
    | .disconnected => (m.markClosed addr now, none)
  | _ => (m, none)

def graceOver (now closedAtNanos : Nat) : Bool :=
  recentlyClosedDuration ≤ now - closedAtNanos

def startGatewayHandshake (addr : SocketAddr) (packetSender : FastSender) (now : Nat) :
    ConnectionStateManager × Bool :=
  match m.getState addr with
  | none => ({ m with states := m.states.insert addr (.gatewayHandshake packetSender) }, true)
  | some (.recentlyClosed closedAtNanos) =>
    if graceOver now closedAtNanos then
      ({ m with states := m.states.insert addr (.gatewayHandshake packetSender) }, true)
    else (m, false)
  | some _ => (m, false)

def completeGatewayHandshake (addr : SocketAddr) (inboundPacketSender : FastSender) :
    ConnectionStateManager × Bool :=
  match m.getState addr with
  | some (.gatewayHandshake _) =>
    ({ m with states := m.states.insert addr (.established inboundPacketSender) }, true)
  | _ => (m, false)

def failGatewayHandshake (addr : SocketAddr) : ConnectionStateManager :=
  match m.getState addr with
  | some (.gatewayHandshake _) => { m with states := m.states.remove addr }
  | _ => m

/-- A request from the higher layer replaces an established connection. -/
def startNatTraversal (addr : SocketAddr) (packetSender : FastSender) (resultSender : ResultSender)
    (now : Nat) : ConnectionStateManager × Bool :=
  let started := m.states.insert addr (.natTraversal packetSender resultSender)
  match m.getState addr with
  | none => ({ m with states := started }, true)
  | some (.established _) =>
    ({ states := started, lastAsymAttempt := m.lastAsymAttempt.remove addr }, true)
  | some (.natTraversal _ _) => (m, false)
  | some (.gatewayHandshake _) => (m, false)
  | some (.recentlyClosed closedAtNanos) =>
    if graceOver now closedAtNanos then ({ m with states := started }, true) else (m, false)

def completeNatTraversal (addr : SocketAddr) (inboundPacketSender : FastSender) :
    ConnectionStateManager × Option ResultSender :=
  match m.getState addr with
  | some (.natTraversal _ resultSender) =>
    ({ m with states := m.states.insert addr (.established inboundPacketSender) }, some resultSender)
  | _ => (m, none)

def failNatTraversal (addr : SocketAddr) : ConnectionStateManager × Option ResultSender :=
  match m.getState addr with
  | some (.natTraversal _ resultSender) =>
    ({ m with states := m.states.remove addr }, some resultSender)
  | _ => (m, none)

def removeEstablished (addr : SocketAddr) : ConnectionStateManager × Option FastSender :=
  match m.getState addr with
  | some (.established sender) => ({ m with states := m.states.remove addr }, some sender)
  | _ => (m, none)

def isRateLimited (addr : SocketAddr) (now : Nat) : Bool :=
  match m.lastAsymAttempt.get addr with
  | some lastNanos => now - lastNanos < asymDecryptionRateLimit
  | none => false

def recordAsymAttempt (addr : SocketAddr) (now : Nat) : ConnectionStateManager :=
  { m with lastAsymAttempt := m.lastAsymAttempt.insert addr now }

def clearRateLimit (addr : SocketAddr) : ConnectionStateManager :=
  { m with lastAsymAttempt := m.lastAsymAttempt.remove addr }

/-- Another address of the same IP whose established connection has lost its receiver. -/
def isStale (newAddr : SocketAddr) (status : FastSender → ChannelStatus) (addr : SocketAddr) : Bool :=
  addr.ip == newAddr.ip && addr != newAddr && match m.getState addr with
    | some (.established sender) => status sender == .disconnected
    | _ => false

def removeStaleFromIp (newAddr : SocketAddr) (status : FastSender → ChannelStatus) :
    ConnectionStateManager :=
  { states := m.states.retain fun addr _ => !m.isStale newAddr status addr
    lastAsymAttempt := m.lastAsymAttempt.retain fun addr _ => !m.isStale newAddr status addr }

def cleanupExpired (now : Nat) : ConnectionStateManager :=
  { states := m.states.retain fun _ state =>
      match state with
      | .recentlyClosed closedAtNanos => now - closedAtNanos < recentlyClosedDuration
      | _ => true
    lastAsymAttempt := m.lastAsymAttempt.retain fun _ lastNanos =>
      now - lastNanos < asymDecryptionRateLimit }

end ConnectionStateManager

/-- Counts the connections a gateway accepts in windows of one second. -/
structure GatewayConnectionRateLimiter where
  startNanos : Nat
  windowStartNanos : Nat
  windowCount : Nat
  deriving DecidableEq, Repr

namespace GatewayConnectionRateLimiter

def gwRampPhase1Duration : Nat := 30 * nanosPerSec
def gwRampPhase2Duration : Nat := 120 * nanosPerSec
def gwRampPhase1Rate : Nat := 5
def gwRampPhase2Rate : Nat := 20

def new (now : Nat) : GatewayConnectionRateLimiter := ⟨now, now, 0⟩

def currentRateLimit (r : GatewayConnectionRateLimiter) (now : Nat) : Option Nat :=
  let elapsed := now - r.startNanos
  if elapsed < gwRampPhase1Duration then some gwRampPhase1Rate
  else if elapsed < gwRampPhase2Duration then some gwRampPhase2Rate
  else none

def tryAccept (r : GatewayConnectionRateLimiter) (now : Nat) : GatewayConnectionRateLimiter × Bool :=
  match r.currentRateLimit now with
  | none => (r, true)
  | some maxRate =>
    let r := if nanosPerSec ≤ now - r.windowStartNanos then
      { r with windowStartNanos := now, windowCount := 0 } else r
    if r.windowCount < maxRate then ({ r with windowCount := r.windowCount + 1 }, true)
    else (r, false)

end GatewayConnectionRateLimiter

/-! Packets, their symmetric decryption over a cipher that preserves lengths, and that of intro
packets. -/
open Outcome List

def packetTypeSize : Nat := 1
def packetTypeIntro : UInt8 := 0x01
def packetTypeSymmetric : UInt8 := 0x02
def maxPacketSize : Nat := 1200
def maxRecvPacketSize : Nat := 1500
def nonceSize : Nat := 12
def tagSize : Nat := 16

def maxDataSize : Nat := maxPacketSize - packetTypeSize - nonceSize - tagSize

def symmetricOverhead : Nat := packetTypeSize + nonceSize + tagSize

structure Aes128Gcm where
  decryptInPlaceDetached : (nonce associated buffer tag : List UInt8) → Option (List UInt8)
  decrypt_length : ∀ nonce associated buffer tag plain,
    decryptInPlaceDetached nonce associated buffer tag = some plain → plain.length = buffer.length

def Aes128Gcm.transparent : Aes128Gcm where
  decryptInPlaceDetached _ _ buffer _ := some buffer
  decrypt_length _ _ _ _ _ h := congrArg length (Option.some.inj h.symm)

inductive Encryption where
  | plaintext
  | symmetricAes
  | asymmetricX25519
  | unknownEncryption
  deriving DecidableEq, Repr

/-- A fixed buffer of `N` bytes of which the first `size` are the packet. -/
structure PacketData (dt : Encryption) (N : Nat) where
  bytes : List UInt8
  size : Nat
  length_bytes : bytes.length = N
  size_le : size ≤ N
  deriving DecidableEq

/-- The only error of the symmetric cipher. -/
inductive AesGcmError where
  | aesGcm
  deriving DecidableEq, Repr

namespace PacketData
variable {dt : Encryption} {N : Nat}

/-- Copy a buffer into a zeroed packet; a buffer longer than the packet is a slice out of range. -/
def fromBuf (dt : Encryption) (N : Nat) (buf : List UInt8) : Outcome (PacketData dt N) :=
  if h : buf.length ≤ N then
    .ok ⟨buf ++ replicate (N - buf.length) 0, buf.length, by simp; omega, h⟩
  else .panicked .sliceRange

/-- The bytes of the packet without the unused rest of the buffer. -/
def data (p : PacketData dt N) : List UInt8 := p.bytes.take p.size

def packetType (p : PacketData dt N) : Option UInt8 :=
  if p.size < packetTypeSize then none
  else
    match p.bytes[0]? with
    | some t => if t = packetTypeIntro ∨ t = packetTypeSymmetric then some t else none
    | none => none

def isIntroPacket (p : PacketData dt N) : Bool := p.packetType == some packetTypeIntro

end PacketData

/-- Copy the ciphertext into a fresh buffer and decrypt it there. -/
def decryptInBuffer (N : Nat) (key : Aes128Gcm) (nonce encrypted tag : List UInt8) :
    Outcome (Except AesGcmError (PacketData .symmetricAes N)) := do
  let buffer ← PacketData.fromBuf .symmetricAes N encrypted
  match key.decryptInPlaceDetached nonce [] buffer.data tag with
  | none => return .error .aesGcm
  | some plain => return .ok (← PacketData.fromBuf .symmetricAes N plain)

def decryptSymmetricBody (build : Build) (N : Nat) (bytes : List UInt8) (size : Nat)
    (key : Aes128Gcm) : Outcome (Except AesGcmError (PacketData .symmetricAes N)) := do
  let nonce ← slice bytes packetTypeSize (packetTypeSize + nonceSize)
  let tagStart ← subUsize build size tagSize
  let tag ← slice bytes tagStart size
  let encryptedEnd ← subUsize build size tagSize
  let encrypted ← slice bytes (packetTypeSize + nonceSize) encryptedEnd
  decryptInBuffer N key nonce encrypted tag

def internalSymDecryption (build : Build) (N : Nat) (bytes : List UInt8) (size : Nat)
    (inboundSymKey : Aes128Gcm) :
    Outcome (Except AesGcmError (PacketData .symmetricAes N)) := do
  -- the assertion is about the whole buffer, not about the packet in it
  if build.debugAssertions && decide (bytes.length < symmetricOverhead) then
    .panicked .assertion
  else
    let packetType ← index bytes 0
    if packetType ≠ packetTypeSymmetric then return .error .aesGcm
    else decryptSymmetricBody build N bytes size inboundSymKey

namespace PacketData
variable {dt : Encryption} {N : Nat}

def tryDecryptSym (build : Build) (p : PacketData .unknownEncryption N)
    (inboundSymKey : Aes128Gcm) : Outcome (Except AesGcmError (PacketData .symmetricAes N)) :=
  internalSymDecryption build N p.bytes p.size inboundSymKey

/-- A packet that announces symmetric encryption and has no room for nonce and tag. -/
def TruncatedSymmetric (p : PacketData dt N) : Prop :=
  p.bytes[0]? = some packetTypeSymmetric ∧ p.size < symmetricOverhead

instance (p : PacketData dt N) : Decidable p.TruncatedSymmetric := inferInstanceAs (Decidable (_ ∧ _))

@[simp]
theorem length_data (p : PacketData dt N) : p.data.length = p.size := by
  have hb := p.length_bytes
  have hs := p.size_le
  simp only [data, length_take]
  omega

theorem fromBuf_of_le (dt : Encryption) (N : Nat) (buf : List UInt8) (h : buf.length ≤ N) :
    ∃ p, fromBuf dt N buf = .ok p ∧ p.data = buf := by
  refine ⟨_, dif_pos h, ?_⟩
  simp [data]

theorem isIntroPacket_of_head (p : PacketData dt N) (h : p.data.head? = some packetTypeIntro) :
    p.isIntroPacket = true := by
  have hbyte : p.bytes[0]? = some packetTypeIntro ∧ 0 < p.size := by
    rw [data, head?_take] at h
    split_ifs at h with hsize
    exact ⟨by rw [← head?_eq_getElem?, h], by omega⟩
  have hsize : ¬ p.size < packetTypeSize := by
    simp only [packetTypeSize]
    omega
  simp [isIntroPacket, packetType, hsize, hbyte.1]

end PacketData

theorem decryptInBuffer_returns (N : Nat) (key : Aes128Gcm) (nonce encrypted tag : List UInt8)
    (h : encrypted.length ≤ N) : (decryptInBuffer N key nonce encrypted tag).Returns := by
  obtain ⟨buffer, hbuff, hdata⟩ := PacketData.fromBuf_of_le .symmetricAes N encrypted h
  unfold decryptInBuffer
  rw [hbuff, ok_bind, hdata]
  cases hplain : key.decryptInPlaceDetached nonce [] encrypted tag with
  | none => simp
  | some plain =>
    have hlen := key.decrypt_length _ _ _ _ _ hplain
    obtain ⟨p, hp, -⟩ := PacketData.fromBuf_of_le .symmetricAes N plain (by omega)
    simp [hp]

/-- Cutting out tag and ciphertext works exactly when the packet has room for them. An unchecked
underflow of the tag's start is caught by the slice that uses it. -/
theorem decryptSymmetricBody_returns_iff (build : Build) (N : Nat) (bytes : List UInt8) (size : Nat)
    (key : Aes128Gcm) (hlen : bytes.length = N) (hsize : size ≤ N) (hN : symmetricOverhead ≤ N) :
    (decryptSymmetricBody build N bytes size key).Returns ↔ symmetricOverhead ≤ size := by
  simp only [decryptSymmetricBody, symmetricOverhead, packetTypeSize, nonceSize, tagSize] at hN ⊢
  rw [slice_of_le bytes _ _ (by omega) (by omega), ok_bind]
  by_cases htag : 16 ≤ size
  · rw [subUsize_of_le build _ _ htag, ok_bind,
      slice_of_le bytes _ _ (by omega) (by omega), ok_bind, ok_bind,
      returns_bind_iff]
    constructor
    · rintro ⟨encrypted, hslice, -⟩
      have := (slice_returns_iff bytes (1 + 12) (size - 16)).mp ⟨encrypted, hslice⟩
      omega
    · intro hroom
      refine ⟨_, slice_of_le bytes _ _ (by omega) (by omega), decryptInBuffer_returns _ _ _ _ _ ?_⟩
      simp only [length_drop, length_take]
      omega
  · simp only [returns_bind_iff]
    constructor
    · rintro ⟨tagStart, hsub, tag, hslice, -⟩
      have hwrap := subUsize_of_lt build size 16 tagStart (by omega) (by omega) hsub
      have := (slice_returns_iff bytes tagStart size).mp ⟨tag, hslice⟩
      omega
    · intro hroom
      omega

/-- Decryption of a packet returns, decrypted or rejected, unless the packet is a symmetric one
without room for nonce and tag. -/
theorem PacketData.tryDecryptSym_returns_iff (build : Build) {N : Nat}
    (p : PacketData .unknownEncryption N) (key : Aes128Gcm) (hN : symmetricOverhead ≤ N) :
    (p.tryDecryptSym build key).Returns ↔ ¬ p.TruncatedSymmetric := by
  have hlen := p.length_bytes
  have hover : symmetricOverhead = 29 := rfl
  have hassert : ¬ (build.debugAssertions && decide (p.bytes.length < symmetricOverhead)) = true := by
    simp only [Bool.and_eq_true, decide_eq_true_eq]
    omega
  have h0 : 0 < p.bytes.length := by omega
  unfold tryDecryptSym internalSymDecryption TruncatedSymmetric
  rw [if_neg hassert, index_of_lt p.bytes 0 h0, ok_bind, getElem?_eq_getElem h0]
  by_cases htype : p.bytes[0] = packetTypeSymmetric
  · rw [if_neg (not_not.mpr htype), decryptSymmetricBody_returns_iff build N _ _ key hlen p.size_le hN]
    simp [htype]
  · simp [htype]

theorem PacketData.fromBuf_truncatedSymmetric_iff (dt : Encryption) (N : Nat) (buf : List UInt8)
    (p : PacketData dt N) (hp : fromBuf dt N buf = .ok p) :
    p.TruncatedSymmetric ↔ buf.head? = some packetTypeSymmetric ∧ buf.length < symmetricOverhead := by
  unfold fromBuf at hp
  split_ifs at hp with h
  cases hp
  unfold TruncatedSymmetric
  cases buf with
  | nil =>
    have hzero : (replicate N (0 : UInt8))[0]? ≠ some packetTypeSymmetric := by
      intro h0
      have := eq_of_mem_replicate (mem_of_getElem? h0)
      simp [packetTypeSymmetric] at this
    simp [hzero]
  | cons b buf => simp

def x25519PublicKeySize : Nat := 32
def chachaTagSize : Nat := 16

def introOverhead : Nat := packetTypeSize + x25519PublicKeySize + chachaTagSize

structure TransportSecretKey where
  openBox : (ephemeralPublic ciphertext : List UInt8) → Option (List UInt8)
  openBox_length : ∀ ephemeralPublic ciphertext plain,
    openBox ephemeralPublic ciphertext = some plain →
      plain.length + chachaTagSize = ciphertext.length

def TransportSecretKey.transparent : TransportSecretKey where
  openBox _ ciphertext :=
    if chachaTagSize ≤ ciphertext.length then some (ciphertext.drop chachaTagSize) else none
  openBox_length _ ciphertext plain h := by
    split_ifs at h with hlen
    cases h
    simp only [length_drop]
    omega

inductive DecryptionError where
  | invalidLength
  | decryptionFailed
  | invalidPacketType
  deriving DecidableEq, Repr

namespace TransportSecretKey

def decrypt (key : TransportSecretKey) (data : List UInt8) :
    Outcome (Except DecryptionError (List UInt8)) := do
  if data.length < introOverhead then return .error .invalidLength
  else
    let packetType ← index data 0
    if packetType ≠ packetTypeIntro then return .error .invalidPacketType
    else
      let ephemeralBytes ← slice data packetTypeSize (packetTypeSize + x25519PublicKeySize)
      let ciphertext ← slice data (packetTypeSize + x25519PublicKeySize) data.length
      match key.openBox ephemeralBytes ciphertext with
      | none => return .error .decryptionFailed
      | some plain => return .ok plain

/-- What decryption answers, without the slicing. -/
def opened (key : TransportSecretKey) (data : List UInt8) : Except DecryptionError (List UInt8) :=
  if data.length < introOverhead then .error .invalidLength
  else if data.head? ≠ some packetTypeIntro then .error .invalidPacketType
  else
    match key.openBox ((data.take 33).drop 1) (data.drop 33) with
    | none => .error .decryptionFailed
    | some plain => .ok plain

variable (key : TransportSecretKey)

/-- Asymmetric decryption never panics: its length check covers every slice it takes. -/
theorem decrypt_eq_opened (data : List UInt8) : key.decrypt data = .ok (key.opened data) := by
  have hover : introOverhead = 49 := rfl
  unfold decrypt opened
  by_cases hlen : data.length < introOverhead
  · simp [hlen]
  · have h0 : 0 < data.length := by omega
    rw [if_neg hlen, if_neg hlen, index_of_lt data 0 h0, ok_bind,
      head?_eq_getElem?, getElem?_eq_getElem h0]
    by_cases htype : data[0] = packetTypeIntro
    · have hephem := slice_of_le data 1 33 (by omega) (by omega)
      have hciph := slice_of_le data 33 data.length (by omega) (Nat.le_refl _)
      rw [if_neg (not_not.mpr htype), if_neg (by simp [htype])]
      simp only [packetTypeSize, x25519PublicKeySize, hephem, hciph, ok_bind, take_length]
      cases key.openBox ((data.take 33).drop 1) (data.drop 33) with
      | none => rfl
      | some plain => rfl
    · simp [htype]

variable (data plain : List UInt8)

theorem opened_length (h : key.opened data = .ok plain) : plain.length + introOverhead = data.length := by
  unfold opened at h
  split_ifs at h with hlen htype
  cases hbox : key.openBox ((data.take 33).drop 1) (data.drop 33) with
  | none =>
    rw [hbox] at h
    cases h
  | some opened =>
    have hplain := key.openBox_length _ _ _ hbox
    simp only [hbox, Except.ok.injEq] at h
    subst h
    simp only [introOverhead, packetTypeSize, x25519PublicKeySize, length_drop] at hplain hlen ⊢
    omega

theorem opened_isIntro (h : key.opened data = .ok plain) : data.head? = some packetTypeIntro := by
  unfold opened at h
  split_ifs at h with hlen htype
  exact not_not.mp htype

end TransportSecretKey

namespace PacketData
variable {N : Nat}

def tryDecryptAsym (p : PacketData .unknownEncryption N) (key : TransportSecretKey) :
    Outcome (Except DecryptionError (PacketData .asymmetricX25519 N)) := do
  match ← key.decrypt p.data with
  | .error e => return .error e
  | .ok decrypted => return .ok (← fromBuf .asymmetricX25519 N decrypted)

variable (p : PacketData .unknownEncryption N) (key : TransportSecretKey)

theorem tryDecryptAsym_ok (plain : List UInt8) (h : key.opened p.data = .ok plain) :
    ∃ q, p.tryDecryptAsym key = .ok (.ok q) ∧ q.data = plain := by
  have hlen := key.opened_length _ _ h
  rw [length_data] at hlen
  have hsize := p.size_le
  obtain ⟨q, hq, hdata⟩ := fromBuf_of_le .asymmetricX25519 N plain (by omega)
  exact ⟨q, by simp [tryDecryptAsym, key.decrypt_eq_opened, h, hq], hdata⟩

end PacketData

/-! The messages of a connection, their encoded size, and how they are spread over packets. -/
open Option

abbrev PacketId := Nat
abbrev StreamId := Nat

/-- The packet id every acknowledgement of a connection is sent under. -/
def firstPacketId : PacketId := 0

structure OutboundConnection where
  key : List UInt8
  remoteAddr : SocketAddr
  deriving DecidableEq

inductive SymmetricMessagePayload where
  | ackConnection (result : Except String OutboundConnection)
  | shortMessage (payload : List UInt8)
  | streamFragment (streamId : StreamId) (totalLengthBytes fragmentNumber : Nat)
      (payload : List UInt8) (metadataBytes : Option (List UInt8))
  | noOp
  | ping (sequence : Nat)
  | pong (sequence : Nat)
  deriving DecidableEq

structure SymmetricMessage where
  packetId : Nat
  confirmReceipt : List PacketId
  payload : SymmetricMessagePayload
  deriving DecidableEq

/-- The bytes of a length-prefixed byte string in the fixed-width encoding. -/
def encodedBytesSize (bytes : List UInt8) : Nat := 8 + bytes.length

def SocketAddr.encodedSize (addr : SocketAddr) : Nat :=
  match addr.ip with
  | .v4 _ => 4 + 4 + 2
  | .v6 _ => 4 + 16 + 2

def SymmetricMessagePayload.serializedSize : SymmetricMessagePayload → Nat
  | ackConnection (.ok connection) => 4 + 4 + 16 + connection.remoteAddr.encodedSize
  | ackConnection (.error cause) => 4 + 4 + 8 + cause.utf8ByteSize
  | shortMessage payload => 4 + encodedBytesSize payload
  | streamFragment _ _ _ payload metadataBytes =>
    4 + 4 + 8 + 4 + encodedBytesSize payload + (1 + (metadataBytes.map encodedBytesSize).getD 0)
  | noOp => 4
  | ping _ => 4 + 8
  | pong _ => 4 + 8

def SymmetricMessagePayload.isAckConnection : SymmetricMessagePayload → Bool
  | ackConnection _ => true
  | _ => false

namespace SymmetricMessage

def serializedSize (m : SymmetricMessage) : Nat :=
  4 + (8 + 4 * m.confirmReceipt.length) + m.payload.serializedSize

def shortMessageOverhead : Nat := serializedSize ⟨2 ^ 32 - 1, [], .shortMessage []⟩

def noopMessageOverhead : Nat := serializedSize ⟨2 ^ 32 - 1, [], .noOp⟩

def maxNumOfConfirmReceiptsOfNoopMessage : Nat := (maxDataSize - noopMessageOverhead) / 4

example : (shortMessageOverhead, noopMessageOverhead, maxNumOfConfirmReceiptsOfNoopMessage) =
    (24, 16, 288) := rfl

def serializeMsgToPacketData (m : SymmetricMessage) : Option SymmetricMessage :=
  if m.serializedSize ≤ maxDataSize then some m else none

/-- The receipt-only packets of a message that is too large for its receipts. What is split off is
what does not fit, whatever its size. -/
def receiptPackets (packetId : PacketId) (confirmReceipt : List PacketId) : Option (List SymmetricMessage) :=
  if confirmReceipt = [] then some []
  else if _h : confirmReceipt.length ≤ maxNumOfConfirmReceiptsOfNoopMessage then do
    return [← serializeMsgToPacketData ⟨packetId, confirmReceipt, .noOp⟩]
  else do
    let packet ← serializeMsgToPacketData
      ⟨packetId, confirmReceipt.drop maxNumOfConfirmReceiptsOfNoopMessage, .noOp⟩
    let rest ← receiptPackets packetId (confirmReceipt.take maxNumOfConfirmReceiptsOfNoopMessage)
    return packet :: rest
termination_by confirmReceipt.length
decreasing_by
  simp only [length_take]
  omega

/-- The packets by which a message is sent: one if everything fits, otherwise the payload and then
the receipts, all under the same id. `none` is a serialization error. -/
def packetsFor (packetId : PacketId) (confirmReceipt : List PacketId)
    (payload : SymmetricMessagePayload) : Option (List SymmetricMessage) :=
  let msg : SymmetricMessage := ⟨packetId, confirmReceipt, payload⟩
  if msg.serializedSize ≤ maxDataSize then some [msg]
  else do
    let packet ← serializeMsgToPacketData ⟨packetId, [], payload⟩
    if confirmReceipt.length < maxNumOfConfirmReceiptsOfNoopMessage then
      return [packet, ← serializeMsgToPacketData ⟨packetId, confirmReceipt, .noOp⟩]
    else
      return packet :: (← receiptPackets packetId confirmReceipt)

theorem serializeMsgToPacketData_eq_some {m m' : SymmetricMessage}
    (h : serializeMsgToPacketData m = some m') : m' = m := by
  unfold serializeMsgToPacketData at h
  split_ifs at h
  exact (some.inj h).symm

variable {payload : SymmetricMessagePayload} {receipts : List PacketId} {packetId : PacketId}

theorem packetsFor_of_fits (h : serializedSize ⟨packetId, receipts, payload⟩ ≤ maxDataSize) :
    packetsFor packetId receipts payload = some [⟨packetId, receipts, payload⟩] := by
  simp [packetsFor, h]

theorem receiptPackets_spec (packetId : PacketId) (receipts : List PacketId)
    (packets : List SymmetricMessage) (h : receiptPackets packetId receipts = some packets)
    (m : SymmetricMessage) (hm : m ∈ packets) :
    m.packetId = packetId ∧ m.payload = .noOp ∧ m.confirmReceipt ⊆ receipts := by
  induction receipts using receiptPackets.induct generalizing packets with
  | case1 =>
    rw [receiptPackets] at h
    simp only [if_true, some.injEq] at h
    subst h
    cases hm
  | case2 receipts hne hfits =>
    rw [receiptPackets, if_neg hne, dif_pos hfits] at h
    obtain ⟨packet, hpack, hp⟩ := bind_eq_some_iff.mp h
    cases hp
    rw [mem_singleton.mp hm, serializeMsgToPacketData_eq_some hpack]
    exact ⟨rfl, rfl, Subset.refl _⟩
  | case3 receipts hne hlong ih =>
    rw [receiptPackets, if_neg hne, dif_neg hlong] at h
    obtain ⟨packet, hpack, h⟩ := bind_eq_some_iff.mp h
    obtain ⟨rest, hrest, hp⟩ := bind_eq_some_iff.mp h
    cases hp
    rcases mem_cons.mp hm with hm | hm
    · rw [hm, serializeMsgToPacketData_eq_some hpack]
      exact ⟨rfl, rfl, drop_subset _ _⟩
    · obtain ⟨hid, hpayl, hsub⟩ := ih rest hrest hm
      exact ⟨hid, hpayl, Subset.trans hsub (take_subset _ _)⟩

theorem packetsFor_spec {packets : List SymmetricMessage}
    (h : packetsFor packetId receipts payload = some packets) {m : SymmetricMessage}
    (hm : m ∈ packets) : m.packetId = packetId ∧ (m.payload = payload ∨ m.payload = .noOp) ∧
      m.confirmReceipt ⊆ receipts := by
  unfold packetsFor at h
  dsimp only at h
  split_ifs at h with hfits hfew
  · cases h
    rw [mem_singleton.mp hm]
    exact ⟨rfl, .inl rfl, Subset.refl _⟩
  · obtain ⟨packet, hpack, h⟩ := bind_eq_some_iff.mp h
    obtain ⟨receiptPacket, hreceipt, hp⟩ := bind_eq_some_iff.mp h
    cases hp
    rcases mem_cons.mp hm with hm | hm
    · rw [hm, serializeMsgToPacketData_eq_some hpack]
      exact ⟨rfl, .inl rfl, nil_subset _⟩
    · rw [mem_singleton.mp hm, serializeMsgToPacketData_eq_some hreceipt]
      exact ⟨rfl, .inr rfl, Subset.refl _⟩
  · obtain ⟨packet, hpack, h⟩ := bind_eq_some_iff.mp h
    obtain ⟨rest, hrest, hp⟩ := bind_eq_some_iff.mp h
    cases hp
    rcases mem_cons.mp hm with hm | hm
    · rw [hm, serializeMsgToPacketData_eq_some hpack]
      exact ⟨rfl, .inl rfl, nil_subset _⟩
    · obtain ⟨hid, hpayl, hsub⟩ := receiptPackets_spec packetId receipts rest hrest m hm
      exact ⟨hid, .inr hpayl, hsub⟩

end SymmetricMessage

end Freenet.Transport
