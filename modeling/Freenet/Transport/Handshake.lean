import Freenet.Transport.PacketData

/-! Protocol versions, and the gateway's side of a handshake up to the first packet under the new
key. -/
namespace Freenet.Transport.VersionCmp

structure VersionBytes where
  b0 : UInt8
  b1 : UInt8
  b2 : UInt8
  b3 : UInt8
  b4 : UInt8
  b5 : UInt8
  b6 : UInt8
  b7 : UInt8
  deriving DecidableEq, Repr

/-- The conversion of a slice to an array of eight bytes. -/
def VersionBytes.ofSlice : List UInt8 → Option VersionBytes
  | [b0, b1, b2, b3, b4, b5, b6, b7] => some ⟨b0, b1, b2, b3, b4, b5, b6, b7⟩
  | _ => none

structure Version where
  major : UInt8
  minor : UInt8
  patch : UInt16
  deriving DecidableEq, Repr

instance : ToString Version :=
  ⟨fun v => toString v.major ++ "." ++ toString v.minor ++ "." ++ toString v.patch⟩

/-- A peer's version; old-format peers do not say what they are compatible with. -/
structure VersionInfo where
  version : Version
  minCompatible : Option Version
  deriving DecidableEq, Repr

def newFormatMarker : UInt8 := 0xFF
def formatVersion : UInt8 := 1

/-- The new format has a marker in front, sixteen-bit patch numbers and a format byte at the end. -/
def encodeNewFormat (version minCompatible : Version) : VersionBytes :=
  { b0 := newFormatMarker
    b1 := version.major
    b2 := version.minor
    b3 := (version.patch >>> 8).toUInt8
    b4 := version.patch.toUInt8
    b5 := (minCompatible.patch >>> 8).toUInt8
    b6 := minCompatible.patch.toUInt8
    b7 := formatVersion }

/-- The package version 0.2.14, compatible down to 0.2.13. -/
def protocVersion : VersionBytes := encodeNewFormat ⟨0, 2, 14⟩ ⟨0, 2, 13⟩

def protocVersionLen : Nat := 8

def u16FromBeBytes (hi lo : UInt8) : UInt16 := hi.toUInt16 <<< 8 ||| lo.toUInt16

def parseVersionBytes (bytes : VersionBytes) : VersionInfo :=
  if bytes.b0 = newFormatMarker ∧ bytes.b7 ≠ 0 then
    { version := ⟨bytes.b1, bytes.b2, u16FromBeBytes bytes.b3 bytes.b4⟩
      minCompatible := some ⟨bytes.b1, bytes.b2, u16FromBeBytes bytes.b5 bytes.b6⟩ }
  else
    { version := ⟨bytes.b0, bytes.b1, bytes.b2.toUInt16⟩, minCompatible := none }

def verGe (a b : Version) : Bool :=
  b.major < a.major || (a.major == b.major &&
    (b.minor < a.minor || (a.minor == b.minor && b.patch ≤ a.patch)))

def isCompatible (localBytes remoteBytes : VersionBytes) : Except String VersionInfo :=
  let localInfo := parseVersionBytes localBytes
  let remoteInfo := parseVersionBytes remoteBytes
  let remoteTooOld := localInfo.minCompatible.filter fun m => !verGe remoteInfo.version m
  let localTooOld := remoteInfo.minCompatible.filter fun m => !verGe localInfo.version m
  match remoteTooOld, localTooOld with
  | some m, _ =>
    .error ("remote " ++ toString remoteInfo.version ++ " too old for our min_compatible " ++ toString m)
  | none, some m =>
    .error ("our " ++ toString localInfo.version ++ " too old for remote's min_compatible " ++ toString m)
  | none, none => .ok remoteInfo

def compatible (localBytes remoteBytes : VersionBytes) : Bool :=
  (isCompatible localBytes remoteBytes).isOk

end Freenet.Transport.VersionCmp

namespace Freenet.Transport
open Lib VersionCmp Outcome

/-- A packet as the listener hands it on, before it is known how it is encrypted. -/
abbrev Packet := PacketData .unknownEncryption maxRecvPacketSize

structure ListenerConfig where
  build : Build
  isGateway : Bool
  secret : TransportSecretKey
  cipher : List UInt8 → Aes128Gcm

inductive TransportError where
  | channelClosed
  | connectionClosed (addr : SocketAddr)
  | connectionEstablishmentFailure (cause : String)
  | protocolVersionMismatch (expected actual : String)
  | sendFailed (addr : SocketAddr)
  | io
  | other
  | pubKeyDecryptionError (e : DecryptionError)
  | serialization
  deriving DecidableEq, Repr

/-- What the gateway finds while it waits for the packet that follows its acknowledgement. -/
inductive HandshakeReply where
  | packet (p : Packet)
  | closed
  | timedOut
  deriving DecidableEq

def symmetricKeySize : Nat := 16

def pckVersion : String := "0.2.14"

def failure (cause : String) : Except TransportError Unit :=
  .error (.connectionEstablishmentFailure cause)

def awaitHandshakeReply (build : Build) (inboundKey : Aes128Gcm) (reply : HandshakeReply) :
    Outcome (Except TransportError Unit) := do
  match reply with
  | .packet p =>
    match ← p.tryDecryptSym build inboundKey with
    | .error _ => return failure "invalid symmetric key"
    | .ok _ => return .ok ()
  | .closed => return failure "connection closed"
  | .timedOut => return failure "connection timed out waiting for response"

/-- The task a gateway runs for an intro packet; `sent` is whether the socket took the
acknowledgement. -/
def gatewayConnection (cfg : ListenerConfig) (remoteIntroPacket : Packet)
    (inboundKeyBytes : List UInt8) (sent : Bool) (reply : HandshakeReply) :
    Outcome (Except TransportError Unit) := do
  match ← cfg.secret.decrypt remoteIntroPacket.data with
  | .error e => return .error (.pubKeyDecryptionError e)
  | .ok decrypted =>
    if decrypted.length < protocVersionLen then
      return failure "Packet too small to contain protocol version"
    else if decrypted.length < protocVersionLen + symmetricKeySize then
      return failure "Packet too small to contain outbound key bytes"
    else
      match VersionBytes.ofSlice (decrypted.take protocVersionLen) with
      | none => return failure "Protocol version field wrong size"
      | some remoteVer =>
        match isCompatible protocVersion remoteVer with
        | .error reason =>
          if sent then return .error (.protocolVersionMismatch pckVersion reason)
          else return .error .channelClosed
        | .ok _ =>
          if sent then awaitHandshakeReply cfg.build (cfg.cipher inboundKeyBytes) reply
          else return .error .channelClosed

/-- The check by which the listener takes an intro packet for a peer it could talk to. -/
def announcesCompatibleVersion (secret : TransportSecretKey) (p : Packet) : Outcome Bool := do
  match ← p.tryDecryptAsym secret with
  | .error _ => return false
  | .ok decrypted =>
    if protocVersionLen + symmetricKeySize ≤ decrypted.data.length then
      match VersionBytes.ofSlice (← slice decrypted.data 0 protocVersionLen) with
      | some remoteVer => return compatible protocVersion remoteVer
      | none => return false
    else return false

def acceptsIntro (secret : TransportSecretKey) (data : List UInt8) : Bool :=
  match secret.opened data with
  | .error _ => false
  | .ok plain =>
    if protocVersionLen + symmetricKeySize ≤ plain.length then
      match VersionBytes.ofSlice (plain.take protocVersionLen) with
      | some remoteVer => compatible protocVersion remoteVer
      | none => false
    else false

theorem announcesCompatibleVersion_eq (secret : TransportSecretKey) (p : Packet) :
    announcesCompatibleVersion secret p = .ok (acceptsIntro secret p.data) := by
  unfold announcesCompatibleVersion acceptsIntro
  cases hopen : secret.opened p.data with
  | error e => simp [PacketData.tryDecryptAsym, secret.decrypt_eq_opened, hopen]
  | ok plain =>
    obtain ⟨q, hq, hdata⟩ := p.tryDecryptAsym_ok secret plain hopen
    simp only [hq, ok_bind, hdata]
    by_cases hlen : protocVersionLen + symmetricKeySize ≤ plain.length
    · rw [if_pos hlen, if_pos hlen, slice_of_le _ _ _ (Nat.zero_le _) (by omega), ok_bind, List.drop_zero]
      cases VersionBytes.ofSlice (plain.take protocVersionLen) with
      | none => rfl
      | some remoteVer => rfl
    · simp [hlen]

theorem awaitHandshakeReply_returns_iff (build : Build) (key : Aes128Gcm) (reply : HandshakeReply) :
    (awaitHandshakeReply build key reply).Returns ↔ ∀ p, reply = .packet p → ¬ p.TruncatedSymmetric := by
  cases reply with
  | packet p =>
    have hretn := p.tryDecryptSym_returns_iff build key (by decide)
    simp only [awaitHandshakeReply, returns_bind_iff, HandshakeReply.packet.injEq, forall_eq', ← hretn]
    constructor
    · rintro ⟨r, hr, -⟩
      exact ⟨r, hr⟩
    · rintro ⟨r, hr⟩
      refine ⟨r, hr, ?_⟩
      cases r <;> simp
  | closed | timedOut => simp [awaitHandshakeReply]

variable (cfg : ListenerConfig) (intro : Packet) (inboundKeyBytes : List UInt8) (sent : Bool)
  (reply : HandshakeReply)

/-- The handshake task waits for a reply exactly when it accepted the intro packet and could send
its acknowledgement; otherwise it has ended with an error. -/
theorem gatewayConnection_cases : (acceptsIntro cfg.secret intro.data = true ∧ sent = true ∧
      gatewayConnection cfg intro inboundKeyBytes sent reply =
        awaitHandshakeReply cfg.build (cfg.cipher inboundKeyBytes) reply) ∨
    ((acceptsIntro cfg.secret intro.data = false ∨ sent = false) ∧
      ∃ e, gatewayConnection cfg intro inboundKeyBytes sent reply = .ok (.error e)) := by
  unfold gatewayConnection acceptsIntro
  rw [TransportSecretKey.decrypt_eq_opened, ok_bind]
  cases cfg.secret.opened intro.data with
  | error e => simp
  | ok plain =>
    by_cases hlen : protocVersionLen + symmetricKeySize ≤ plain.length
    · have h₁ : ¬ plain.length < protocVersionLen := by omega
      have h₂ : ¬ plain.length < protocVersionLen + symmetricKeySize := by omega
      simp only [h₁, h₂, hlen, if_true]
      cases VersionBytes.ofSlice (plain.take protocVersionLen) with
      | none => simp [failure]
      | some remoteVer =>
        cases hver : isCompatible protocVersion remoteVer with
        | error reason | ok info =>
          cases sent <;> simp [compatible, hver, Except.isOk, Except.toBool]
    · have h₂ : plain.length < protocVersionLen + symmetricKeySize := by omega
      simp only [hlen, if_false, h₂]
      split_ifs <;> simp [failure]

theorem acceptsIntro_of_gatewayConnection_ok
    (h : gatewayConnection cfg intro inboundKeyBytes sent reply = .ok (.ok ())) :
    acceptsIntro cfg.secret intro.data = true := by
  obtain ⟨haccept, -, -⟩ | ⟨-, e, he⟩ :=
    gatewayConnection_cases cfg intro inboundKeyBytes sent reply
  · exact haccept
  · rw [he] at h
    cases h

theorem gatewayConnection_returns_iff :
    (gatewayConnection cfg intro inboundKeyBytes sent reply).Returns ↔
      acceptsIntro cfg.secret intro.data = false ∨ sent = false ∨
        ∀ p, reply = .packet p → ¬ p.TruncatedSymmetric := by
  obtain ⟨haccept, hsent, heq⟩ | ⟨hstop, e, he⟩ :=
    gatewayConnection_cases cfg intro inboundKeyBytes sent reply
  · rw [heq, awaitHandshakeReply_returns_iff]
    simp [haccept, hsent]
  · tauto

end Freenet.Transport
