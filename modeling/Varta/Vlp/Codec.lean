import Varta.Vlp.Crc32c
import Varta.Vlp.Frame
import Varta.Vlp.Util

/-!
# The frame codec

`Frame::encode` and `Frame::decode` of `varta-vlp`: 32 bytes with little-endian fields and a
CRC-32C over the first 28 of them. `WireFrame` is the struct with all its fields at their
widths; `WireFrame.frame` is the frame that the other modules know.
-/
namespace Varta.Vlp

open Machine

def magic : UInt8 × UInt8 := (0x56, 0x41)

def version : UInt8 := 0x02

/-- `status as u8`. -/
def Status.toU8 : Status → UInt8
  | .ok => 0
  | .degraded => 1
  | .critical => 2
  | .stall => 3

def Status.tryFromU8 (byte : UInt8) : Except DecodeError Status :=
  if byte = 0 then .ok .ok
  else if byte = 1 then .ok .degraded
  else if byte = 2 then .ok .critical
  else if byte = 3 then .ok .stall
  else .error (.badStatus byte)

/-- `Frame` with its magic and its version. -/
structure WireFrame where
  magic : UInt8 × UInt8
  version : UInt8
  status : Status
  pid : UInt32
  timestamp : UInt64
  nonce : UInt64
  payload : UInt32
  deriving DecidableEq, Repr

namespace WireFrame

/-- `Frame::new`. -/
def new (status : Status) (pid : UInt32) (timestamp nonce : UInt64) (payload : UInt32) :
    WireFrame :=
  ⟨Vlp.magic, Vlp.version, status, pid, timestamp, nonce, payload⟩

/-- The frame as the observer's modules read it. -/
def frame (f : WireFrame) : Frame :=
  ⟨f.status, f.pid, f.timestamp.toNat, f.nonce.toNat, f.payload⟩

/-- Bytes 0 to 28, which the checksum covers. -/
def covered (f : WireFrame) : Bytes :=
  [f.magic.1, f.magic.2, f.version, f.status.toU8] ++
    (Bytes.toLe 4 f.pid.toNat ++ (Bytes.toLe 8 f.timestamp.toNat ++
      (Bytes.toLe 8 f.nonce.toNat ++ Bytes.toLe 4 f.payload.toNat)))

@[simp] theorem length_covered (f : WireFrame) : f.covered.length = 28 := by simp [covered]

def encode (f : WireFrame) : Bytes32 :=
  ⟨f.covered ++ Bytes.toLe 4 (Crc32c.compute f.covered).toNat, by simp⟩

end WireFrame

namespace Bytes32

def get (b : Bytes32) (i : Fin 32) : UInt8 := b.bytes.get (i.cast b.length_eq.symm)

/-- `bytes[first..last]`. -/
def slice (b : Bytes32) (first last : Nat) : Bytes := (b.bytes.drop first).take (last - first)

end Bytes32

def WireFrame.decode (b : Bytes32) : Except DecodeError WireFrame :=
  if (b.get 0, b.get 1) ≠ Vlp.magic then .error .badMagic
  else if b.get 2 ≠ Vlp.version then .error .badVersion
  else
    let storedCrc := UInt32.ofNat (b.slice 28 32).fromLe
    let computedCrc := Crc32c.compute (b.slice 0 28)
    -- the checksum comes before the fields, so that no corruption is read as one of them
    if storedCrc ≠ computedCrc then .error (.badCrc computedCrc storedCrc)
    else
      match Status.tryFromU8 (b.get 3) with
      | .error e => .error e
      | .ok status =>
        let pid := UInt32.ofNat (b.slice 4 8).fromLe
        let timestamp := UInt64.ofNat (b.slice 8 16).fromLe
        let nonce := UInt64.ofNat (b.slice 16 24).fromLe
        let payload := UInt32.ofNat (b.slice 24 28).fromLe
        if status = .stall then .error .stallOnWire
        else if pid = 0 ∨ pid = 1 then .error (.badPid pid)
        else if timestamp.toNat = u64Bound - 1 then .error (.badTimestamp timestamp.toNat)
        else if nonce.toNat = nonceTerminal ∧ status ≠ .critical then
          .error (.badNonce nonce.toNat status)
        else .ok ⟨(b.get 0, b.get 1), b.get 2, status, pid, timestamp, nonce, payload⟩

/-! ### What is accepted -/

namespace WireFrame

/-- The frames an agent may send. -/
structure Valid (f : WireFrame) : Prop where
  magic : f.magic = Vlp.magic
  version : f.version = Vlp.version
  status : f.status ≠ .stall
  pid : 2 ≤ f.pid
  timestamp : f.timestamp.toNat < u64Bound - 1
  nonce : f.nonce.toNat = nonceTerminal → f.status = .critical

/-- The fields of `f` are those of the buffer, and its checksum is right. -/
structure Reads (b : Bytes32) (f : WireFrame) : Prop where
  magic : f.magic = (b.get 0, b.get 1)
  version : f.version = b.get 2
  status : Status.tryFromU8 (b.get 3) = .ok f.status
  pid : f.pid = UInt32.ofNat (b.slice 4 8).fromLe
  timestamp : f.timestamp = UInt64.ofNat (b.slice 8 16).fromLe
  nonce : f.nonce = UInt64.ofNat (b.slice 16 24).fromLe
  payload : f.payload = UInt32.ofNat (b.slice 24 28).fromLe
  crc : UInt32.ofNat (b.slice 28 32).fromLe = Crc32c.compute (b.slice 0 28)

theorem two_le_iff {pid : UInt32} : 2 ≤ pid ↔ ¬ (pid = 0 ∨ pid = 1) := by
  simp only [UInt32.le_iff_toNat_le, ← UInt32.toNat_inj]
  change 2 ≤ pid.toNat ↔ ¬ (pid.toNat = 0 ∨ pid.toNat = 1)
  omega

variable {f : WireFrame} (b : Bytes32)

theorem decode_eq_ok_iff {b : Bytes32} : decode b = .ok f ↔ Reads b f ∧ f.Valid := by
  constructor
  · intro decoded
    unfold decode at decoded
    dsimp only at decoded
    split at decoded
    · cases decoded
    next magic =>
    split at decoded
    · cases decoded
    next version =>
    split at decoded
    · cases decoded
    next crc =>
    split at decoded
    · cases decoded
    next status read =>
    split at decoded
    · cases decoded
    next agent =>
    split at decoded
    · cases decoded
    next pid =>
    split at decoded
    · cases decoded
    next timestamp =>
    split at decoded
    · cases decoded
    next nonce =>
      cases decoded
      refine ⟨⟨rfl, rfl, read, rfl, rfl, rfl, rfl, not_not.mp crc⟩,
        ⟨not_not.mp magic, not_not.mp version, agent, two_le_iff.mpr pid, ?_, ?_⟩⟩
      · have bound := (UInt64.ofNat (b.slice 8 16).fromLe).toNat_lt
        exact Nat.lt_of_le_of_ne (Nat.le_sub_one_of_lt bound) timestamp
      · intro terminal
        by_contra other
        exact nonce ⟨terminal, other⟩
  · rintro ⟨reads, valid⟩
    have magic := reads.magic.symm.trans valid.magic
    have version := reads.version.symm.trans valid.version
    have timestamp : f.timestamp.toNat ≠ u64Bound - 1 := Nat.ne_of_lt valid.timestamp
    have nonce : ¬ (f.nonce.toNat = nonceTerminal ∧ f.status ≠ .critical) :=
      fun terminal => terminal.2 (valid.nonce terminal.1)
    unfold decode
    rw [if_neg (not_not.mpr magic), if_neg (not_not.mpr version), if_neg (not_not.mpr reads.crc),
      reads.status]
    dsimp only
    rw [← reads.pid, ← reads.timestamp, ← reads.nonce, ← reads.payload, ← reads.magic,
      ← reads.version, if_neg valid.status, if_neg (two_le_iff.mp valid.pid), if_neg timestamp,
      if_neg nonce]

/-! ### Buffers and frames -/

theorem tryFromU8_toU8 (status : Status) : Status.tryFromU8 status.toU8 = .ok status := by
  cases status <;> rfl

theorem toU8_of_tryFromU8 {byte : UInt8} {status : Status}
    (read : Status.tryFromU8 byte = .ok status) : status.toU8 = byte := by
  unfold Status.tryFromU8 at read
  split at read
  next is => cases read; exact is.symm
  split at read
  next is => cases read; exact is.symm
  split at read
  next is => cases read; exact is.symm
  split at read
  next is => cases read; exact is.symm
  next => cases read

/-- Integers of four and of eight bytes. -/
theorem ofNat_fromLe_toLe_u32 (n : UInt32) : UInt32.ofNat (Bytes.fromLe (Bytes.toLe 4 n.toNat)) = n := by
  rw [Bytes.fromLe_toLe n.toNat_lt, UInt32.ofNat_toNat]

theorem ofNat_fromLe_toLe_u64 (n : UInt64) : UInt64.ofNat (Bytes.fromLe (Bytes.toLe 8 n.toNat)) = n := by
  rw [Bytes.fromLe_toLe n.toNat_lt, UInt64.ofNat_toNat]

theorem toLe_ofNat_fromLe_u32 {bytes : Bytes} (four : bytes.length = 4) :
    Bytes.toLe 4 (UInt32.ofNat bytes.fromLe).toNat = bytes := by
  have bound := Bytes.fromLe_lt bytes
  rw [four] at bound
  rw [UInt32.toNat_ofNat_of_lt' bound, ← four, Bytes.toLe_fromLe]

theorem toLe_ofNat_fromLe_u64 {bytes : Bytes} (eight : bytes.length = 8) :
    Bytes.toLe 8 (UInt64.ofNat bytes.fromLe).toNat = bytes := by
  have bound := Bytes.fromLe_lt bytes
  rw [eight] at bound
  rw [UInt64.toNat_ofNat_of_lt' bound, ← eight, Bytes.toLe_fromLe]

theorem length_slice {first last : Nat} (order : first ≤ last) (inside : last ≤ 32) :
    (b.slice first last).length = last - first := by
  rw [Bytes32.slice, List.length_take, List.length_drop, b.length_eq]
  omega

theorem slice_append {first middle last : Nat} (low : first ≤ middle) (high : middle ≤ last) :
    b.slice first middle ++ b.slice middle last = b.slice first last := by
  obtain ⟨n, rfl⟩ := Nat.exists_eq_add_of_le low
  obtain ⟨m, rfl⟩ := Nat.exists_eq_add_of_le high
  unfold Bytes32.slice
  rw [← List.drop_drop, Nat.add_sub_cancel_left, Nat.add_sub_cancel_left, Nat.add_assoc,
    Nat.add_sub_cancel_left, ← List.take_add]

theorem slice_all : b.slice 0 32 = b.bytes :=
  List.take_of_length_le (Nat.le_of_eq b.length_eq)

theorem slice_head : ∀ b : Bytes32, b.slice 0 4 = [b.get 0, b.get 1, b.get 2, b.get 3]
  | ⟨_ :: _ :: _ :: _ :: _, _⟩ => rfl

/-- A buffer that reads as `f` is the encoding of `f`, and the other way round. -/
theorem reads_iff {b : Bytes32} : Reads b f ↔ f.encode = b := by
  constructor
  · intro reads
    have covered : f.covered = b.slice 0 28 := by
      rw [WireFrame.covered, reads.magic, reads.version, toU8_of_tryFromU8 reads.status,
        reads.pid, reads.timestamp, reads.nonce, reads.payload,
        toLe_ofNat_fromLe_u32 (length_slice b (by decide) (by decide)),
        toLe_ofNat_fromLe_u64 (length_slice b (by decide) (by decide)),
        toLe_ofNat_fromLe_u64 (length_slice b (by decide) (by decide)),
        toLe_ofNat_fromLe_u32 (length_slice b (by decide) (by decide)), ← slice_head,
        slice_append b (by decide) (by decide), slice_append b (by decide) (by decide),
        slice_append b (by decide) (by decide), slice_append b (by decide) (by decide)]
    apply Bytes32.ext
    change f.covered ++ Bytes.toLe 4 (Crc32c.compute f.covered).toNat = b.bytes
    rw [covered, ← reads.crc, toLe_ofNat_fromLe_u32 (length_slice b (by decide) (by decide)),
      slice_append b (by decide) (by decide), slice_all]
  · rintro rfl
    refine ⟨rfl, rfl, tryFromU8_toU8 f.status, (ofNat_fromLe_toLe_u32 f.pid).symm,
      (ofNat_fromLe_toLe_u64 f.timestamp).symm, (ofNat_fromLe_toLe_u64 f.nonce).symm,
      (ofNat_fromLe_toLe_u32 f.payload).symm, ?_⟩
    exact ofNat_fromLe_toLe_u32 (Crc32c.compute f.covered)

theorem decode_eq_ok_iff_encode {b : Bytes32} : decode b = .ok f ↔ f.Valid ∧ f.encode = b := by
  rw [decode_eq_ok_iff, reads_iff, and_comm]

/-- The codec is exact: what is encoded is decoded again, what is decoded was encoded so, and
the accepted buffers are those of the frames that an agent may send. -/
theorem codec_exact :
    (∀ f : WireFrame, f.Valid → decode f.encode = .ok f) ∧
      (∀ b f, decode b = .ok f → f.encode = b) ∧
      ∀ b, (∃ f, decode b = .ok f) ↔ ∃ f : WireFrame, f.Valid ∧ f.encode = b := by
  refine ⟨fun f valid => ?_, fun b f decoded => ?_, fun b => ?_⟩
  · exact decode_eq_ok_iff_encode.mpr ⟨valid, rfl⟩
  · exact (decode_eq_ok_iff_encode.mp decoded).2
  · exact exists_congr fun f => decode_eq_ok_iff_encode

/-- The first beat of process 42. -/
def firstBeat : WireFrame := new .ok 42 1 1 0

theorem firstBeat_valid : firstBeat.Valid :=
  ⟨rfl, rfl, by decide, by decide, by decide, by decide⟩

theorem codec_exact_firstBeat : firstBeat.Valid ∧ decode firstBeat.encode = .ok firstBeat :=
  ⟨firstBeat_valid, codec_exact.1 firstBeat firstBeat_valid⟩

end WireFrame

end Varta.Vlp
