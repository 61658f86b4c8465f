import Floodgate.Verified.StreamCipher
import Floodgate.Ports.PacketView

/-!
# Portnum recovery

The firmware encrypts the `Data` message of a packet in counter mode, under a
nonce made of the packet id and the sender.  Neither is part of the ciphertext:
`extract_portnum_protobuf` takes both from the packet and rebuilds the nonce
byte by byte, so the portnum comes back for every id and every sender.

The cipher is known to combine its input with a keystream that depends on the
key and the nonce only.

## Main results

* `buildNonce_eq`: `build_nonce` is the firmware's nonce.
* `extractPortnumProtobuf_eq_none_iff`: nothing is recovered exactly when one of
  the stages of `Unreadable` fails.
* `extractPortnumProtobuf_recovers`: what the firmware encrypted is recovered,
  and everything else is `None`.
-/

namespace Floodgate.Ports

open Floodgate.Verified.StreamCipher

/-! ## The firmware's encryption -/

/-- The four bytes of a number, least significant first. -/
def littleEndian32 (n : UInt32) : Bytes :=
  [n.toUInt8, (n >>> 8).toUInt8, (n >>> 16).toUInt8, (n >>> 24).toUInt8]

/-- The nonce of the firmware: the packet id as a 64-bit little-endian number,
the sender as a 32-bit one, and four zero bytes. -/
def firmwareNonce (id sender : UInt32) : Bytes :=
  (littleEndian32 id ++ [0, 0, 0, 0]) ++ littleEndian32 sender ++ [0, 0, 0, 0]

theorem uint8_xor_selfInverse : SelfInverse fun x k : UInt8 => x ^^^ k := by
  intro x k
  simp

theorem toBytesLittle_toNat (n : UInt32) :
    toBytesLittle n.toNat 4 = littleEndian32 n := by
  have hbyte : ∀ k : UInt32, UInt8.ofNat (n.toNat / 2 ^ (k.toNat % 32)) =
      (n >>> k).toUInt8 := by
    intro k
    apply UInt8.toNat_inj.mp
    simp [Nat.shiftRight_eq_div_pow]
  have h0 : UInt8.ofNat n.toNat = n.toUInt8 := by
    apply UInt8.toNat_inj.mp
    simp
  have h1 : UInt8.ofNat (n.toNat / 256) = (n >>> 8).toUInt8 := hbyte 8
  have h2 : UInt8.ofNat (n.toNat / 65536) = (n >>> 16).toUInt8 := hbyte 16
  have h3 : UInt8.ofNat (n.toNat / 16777216) = (n >>> 24).toUInt8 := hbyte 24
  simp [toBytesLittle, List.range_succ, littleEndian32, h0, h1, h2, h3]

/-- A 32-bit number has no bytes above its fourth. -/
theorem toBytesLittle_eight (n : UInt32) :
    toBytesLittle n.toNat 8 = littleEndian32 n ++ [0, 0, 0, 0] := by
  have hzero : ∀ i ≥ 4, n.toNat / 256 ^ i = 0 := by
    intro i hi
    have hpow : 256 ^ 4 ≤ 256 ^ i := Nat.pow_le_pow_right (by decide) hi
    have hlt := n.toNat_lt
    exact Nat.div_eq_of_lt (by omega)
  have hsplit : toBytesLittle n.toNat 8 = toBytesLittle n.toNat 4 ++
      [UInt8.ofNat (n.toNat / 256 ^ 4), UInt8.ofNat (n.toNat / 256 ^ 5),
        UInt8.ofNat (n.toNat / 256 ^ 6), UInt8.ofNat (n.toNat / 256 ^ 7)] := rfl
  rw [hsplit, toBytesLittle_toNat, hzero 4 (by decide), hzero 5 (by decide),
    hzero 6 (by decide), hzero 7 (by decide)]
  rfl

/-- `build_nonce` is the firmware's nonce. -/
theorem buildNonce_eq (id sender : UInt32) :
    buildNonce id.toNat sender.toNat = firmwareNonce id sender := by
  have hid : id.toNat % 2 ^ 64 = id.toNat :=
    Nat.mod_eq_of_lt (Nat.lt_trans id.toNat_lt (by decide))
  have hsender : sender.toNat % 2 ^ 32 = sender.toNat := Nat.mod_eq_of_lt sender.toNat_lt
  rw [buildNonce, hid, hsender, toBytesLittle_eight, toBytesLittle_toNat, firmwareNonce]

/-- The cipher combines its input with a keystream that depends on the key and
the nonce only. -/
def CounterMode (cipher : Bytes → Bytes → Bytes → Bytes)
    (keystream : Bytes → Bytes → Nat → UInt8) : Prop :=
  ∀ key nonce input, cipher key nonce input = mask (· ^^^ ·) (keystream key nonce) input

section Recovery

variable (rt : Runtime) (protos : Protos) (keystream : Bytes → Bytes → Nat → UInt8)

/-- The firmware's encryption of a text for a packet, under the default key. -/
def firmwareEncrypt (pkt : MeshPacket) (plaintext : Bytes) : Bytes :=
  mask (· ^^^ ·) (keystream defaultKey (firmwareNonce pkt.id pkt.sender)) plaintext

/-- The stages at which nothing can be read of a payload. -/
inductive Unreadable (payload : Bytes) : Prop
  | envelope {e : PyErr} (h : protos.parseEnvelope payload = .error e)
  | packet {m : ServiceEnvelope} (h : protos.parseEnvelope payload = .ok m)
      (hpkt : m.packet = none)
  | variant {m : ServiceEnvelope} {pkt : MeshPacket}
      (h : protos.parseEnvelope payload = .ok m) (hpkt : m.packet = some pkt)
      (hvariant : ∀ ciphertext, pkt.payloadVariant ≠ some (.encrypted ciphertext))
  | data {m : ServiceEnvelope} {pkt : MeshPacket} {ciphertext : Bytes} {e : PyErr}
      (h : protos.parseEnvelope payload = .ok m) (hpkt : m.packet = some pkt)
      (hvariant : pkt.payloadVariant = some (.encrypted ciphertext))
      (hdata : protos.parseData (firmwareEncrypt keystream pkt ciphertext) = .error e)
  | portnum {m : ServiceEnvelope} {pkt : MeshPacket} {ciphertext : Bytes}
      {d : DataMessage} {e : PyErr}
      (h : protos.parseEnvelope payload = .ok m) (hpkt : m.packet = some pkt)
      (hvariant : pkt.payloadVariant = some (.encrypted ciphertext))
      (hdata : protos.parseData (firmwareEncrypt keystream pkt ciphertext) = .ok d)
      (hname : protos.portnumName d.portnum = .error e)

variable {rt protos keystream}

/-- The code decrypts with the firmware's nonce; in counter mode this is the
firmware's encryption once more. -/
theorem decrypt_eq (hcipher : CounterMode rt.aesCtr keystream) (pkt : MeshPacket)
    (ciphertext : Bytes) :
    decrypt rt ciphertext pkt.id.toNat (readFromField pkt) =
      firmwareEncrypt keystream pkt ciphertext := by
  rw [decrypt, readFromField_eq, buildNonce_eq, hcipher, firmwareEncrypt]

/-- What is read of an encrypted packet. -/
theorem readPortnumProtobuf_encrypted {payload : Bytes} {m : ServiceEnvelope}
    {pkt : MeshPacket} {ciphertext : Bytes} (hprotos : rt.protos = some protos)
    (hcipher : CounterMode rt.aesCtr keystream)
    (h : protos.parseEnvelope payload = .ok m) (hpkt : m.packet = some pkt)
    (hvariant : pkt.payloadVariant = some (.encrypted ciphertext)) :
    readPortnumProtobuf rt payload = (do
      let d ← protos.parseData (firmwareEncrypt keystream pkt ciphertext)
      return some (← protos.portnumName d.portnum)) := by
  simp only [readPortnumProtobuf, Runtime.loadProtos, hprotos, h, hpkt, hvariant,
    decrypt_eq hcipher, bind, Except.bind]

/-- Where nothing is recovered, one of the stages has failed. -/
theorem unreadable_of_eq_none (hprotos : rt.protos = some protos)
    (hcipher : CounterMode rt.aesCtr keystream) {payload : Bytes}
    (hnone : extractPortnumProtobuf rt payload = none) :
    Unreadable protos keystream payload := by
  cases h : protos.parseEnvelope payload with
  | error e => exact .envelope h
  | ok m =>
      cases hpkt : m.packet with
      | none => exact .packet h hpkt
      | some pkt =>
          by_cases hvariant : ∃ ciphertext, pkt.payloadVariant = some (.encrypted ciphertext)
          · obtain ⟨ciphertext, hvariant⟩ := hvariant
            have hread := readPortnumProtobuf_encrypted hprotos hcipher h hpkt hvariant
            cases hdata : protos.parseData (firmwareEncrypt keystream pkt ciphertext) with
            | error e => exact .data h hpkt hvariant hdata
            | ok d =>
                cases hname : protos.portnumName d.portnum with
                | error e => exact .portnum h hpkt hvariant hdata hname
                | ok name =>
                    rw [hdata] at hread
                    simp only [bind, Except.bind, hname] at hread
                    rw [extractPortnumProtobuf, hread] at hnone
                    cases hnone
          · exact .variant h hpkt (not_exists.mp hvariant)

theorem eq_none_of_unreadable (hprotos : rt.protos = some protos)
    (hcipher : CounterMode rt.aesCtr keystream) {payload : Bytes}
    (hunreadable : Unreadable protos keystream payload) :
    extractPortnumProtobuf rt payload = none := by
  cases hunreadable with
  | envelope h =>
      simp [extractPortnumProtobuf, readPortnumProtobuf, Runtime.loadProtos, hprotos, h,
        bind, Except.bind]
  | packet h hpkt =>
      simp [extractPortnumProtobuf, readPortnumProtobuf, Runtime.loadProtos, hprotos, h,
        hpkt, bind, Except.bind, pure, Except.pure]
  | @variant m pkt h hpkt hvariant =>
      have hread : readPortnumProtobuf rt payload = .ok none := by
        simp only [readPortnumProtobuf, Runtime.loadProtos, hprotos, h, hpkt, bind,
          Except.bind]
        rfl
      rw [extractPortnumProtobuf, hread]
  | data h hpkt hvariant hdata =>
      rw [extractPortnumProtobuf,
        readPortnumProtobuf_encrypted hprotos hcipher h hpkt hvariant, hdata]
      rfl
  | portnum h hpkt hvariant hdata hname =>
      rw [extractPortnumProtobuf,
        readPortnumProtobuf_encrypted hprotos hcipher h hpkt hvariant, hdata]
      simp [bind, Except.bind, hname]

/-- Nothing is recovered of a payload exactly when one of the stages fails. -/
theorem extractPortnumProtobuf_eq_none_iff (hprotos : rt.protos = some protos)
    (hcipher : CounterMode rt.aesCtr keystream) (payload : Bytes) :
    extractPortnumProtobuf rt payload = none ↔ Unreadable protos keystream payload :=
  ⟨unreadable_of_eq_none hprotos hcipher, eq_none_of_unreadable hprotos hcipher⟩

/-- Portnum recovery inverts the firmware's encryption, for every packet id,
sender and serialised message; and `None` is returned, without a raise, exactly
for the payloads of which nothing can be read. -/
theorem extractPortnumProtobuf_recovers {serializeData : DataMessage → Bytes}
    (hprotos : rt.protos = some protos) (hcipher : CounterMode rt.aesCtr keystream) :
    (∀ (m : ServiceEnvelope) (pkt : MeshPacket) (d : DataMessage) (name : PyStr),
      m.packet = some pkt →
      pkt.payloadVariant =
        some (.encrypted (firmwareEncrypt keystream pkt (serializeData d))) →
      protos.portnumName d.portnum = .ok name →
      protos.parseEnvelope (protos.serializeEnvelope m) = .ok m →
      protos.parseData (serializeData d) = .ok d →
      extractPortnumProtobuf rt (protos.serializeEnvelope m) = some name) ∧
    ∀ payload, extractPortnumProtobuf rt payload = none ↔
      Unreadable protos keystream payload := by
  refine ⟨fun m pkt d name hpkt hvariant hname henvelope hdata => ?_,
    extractPortnumProtobuf_eq_none_iff hprotos hcipher⟩
  have hplain : firmwareEncrypt keystream pkt
      (firmwareEncrypt keystream pkt (serializeData d)) = serializeData d :=
    mask_mask uint8_xor_selfInverse _ _
  rw [extractPortnumProtobuf,
    readPortnumProtobuf_encrypted hprotos hcipher henvelope hpkt hvariant, hplain, hdata]
  simp [bind, Except.bind, hname, pure, Except.pure]

end Recovery

/-! ## A packet with extreme nonce parameters -/

/-- The first keystream block under the default key, for packet id 0 and sender
`0xffffffff`. -/
def ctrKeystream (key nonce : Bytes) (i : Nat) : UInt8 :=
  if key = defaultKey ∧ nonce = firmwareNonce 0 0xffffffff then
    [0x7b, 0x64, 0x8f, 0x3d, 0x28, 0xbc, 0xb9, 0x67,
      0xd5, 0x1f, 0x03, 0x05, 0xf6, 0x8d, 0x8a, 0x47].getD i 0
  else 0

/-- A text message, and its serialisation. -/
def ctrMessage : DataMessage where
  portnum := 1
  rest := [0x12, 0x02] ++ ascii "hi"

def ctrMessageBytes : Bytes := [0x08, 0x01, 0x12, 0x02] ++ ascii "hi"

/-- An envelope with the encrypted text message. -/
def ctrEnvelope : ServiceEnvelope where
  packet := some
    { sender := 0xffffffff, destination := 0xffffffff, id := 0
      hopLimit := 3, hopStart := 3, viaMqtt := false, nextHop := 0, relayNode := 0
      payloadVariant := some (.encrypted [0x73, 0x65, 0x9d, 0x3f, 0x40, 0xd5]), rest := [] }
  channelId := py "LongFast"
  gatewayId := []
  rest := []

def ctrPayload : Bytes :=
  [0x0a, 0x16, 0x0d, 0xff, 0xff, 0xff, 0xff, 0x15, 0xff, 0xff, 0xff, 0xff,
    0x2a, 0x06, 0x73, 0x65, 0x9d, 0x3f, 0x40, 0xd5, 0x48, 0x03, 0x78, 0x03,
    0x12, 0x08] ++ ascii "LongFast"

/-- Protobuf modules that know the envelope and the text message. -/
def ctrProtos : Protos :=
  { Protos.ofEnvelope ctrPayload ctrPayload ctrEnvelope with
    parseData := fun bytes =>
      if bytes = ctrMessageBytes then .ok ctrMessage
      else .error ⟨.protoDecodeError, py "Error parsing message"⟩
    portnumName := fun v =>
      if v = 1 then .ok (py "TEXT_MESSAGE_APP")
      else .error ⟨.valueError, py "Enum PortNum has no name defined for value"⟩ }

def ctrRuntime : Runtime :=
  { Runtime.ofProtos ctrProtos with
    aesCtr := fun key nonce => mask (· ^^^ ·) (ctrKeystream key nonce) }

/-- The portnum of an encrypted text message, with packet id 0 and the highest
sender. -/
theorem extractPortnumProtobuf_recovers_ctrMessage :
    extractPortnumProtobuf ctrRuntime ctrPayload =
      some (py "TEXT_MESSAGE_APP") :=
  (@extractPortnumProtobuf_recovers ctrRuntime ctrProtos ctrKeystream
    (fun _ => ctrMessageBytes) rfl fun _ _ _ => rfl).1 ctrEnvelope _ ctrMessage _ rfl
      (by decide) rfl (by simp [ctrProtos, Protos.ofEnvelope]) (by simp [ctrProtos])

end Floodgate.Ports
