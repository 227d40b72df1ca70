import Mathlib
import Varta.Ports.Wire

/-!
# The decoders of the ports

`decode` of `clients/python`, `clients/node` and `clients/dotnet` on a buffer of 32 bytes, each
with the integers of its language, and that each of them says what `Frame::decode` says. The
text that goes with the kind of an error is left out.
-/
namespace Varta.Ports

open Vlp

inductive DecodeErrorKind where
  | badMagic
  | badVersion
  | badCrc
  | badStatus
  | stallOnWire
  | badPid
  | badTimestamp
  | badNonce
  deriving DecidableEq, Repr

/-- `Frame` of Python and Node, with integers of any size. -/
structure Decoded where
  status : Status
  pid : Nat
  timestamp : Nat
  nonce : Nat
  payload : Nat
  deriving DecidableEq, Repr

/-- `Status(byte)` in Python and `byte as Status` in Node, behind the check for the byte. -/
def statusOf : Nat → Status
  | 0 => .ok
  | 1 => .degraded
  | 2 => .critical
  | _ => .stall

local instance neZero_buffer : NeZero 32 := ⟨by decide⟩

/-- The integer at `bytes[first..last]`. -/
def field (b : Bytes32) (first last : Nat) : Nat := (b.slice first last).fromLe

/-! ### Python -/

def Python.decode (b : Bytes32) : Except DecodeErrorKind Decoded :=
  if b.slice 0 2 ≠ [0x56, 0x41] then .error .badMagic
  else if b.get 2 ≠ 0x02 then .error .badVersion
  else
    let storedCrc := field b 28 32
    let computedCrc := crc32c (b.slice 0 28)
    if storedCrc ≠ computedCrc then .error .badCrc
    else
      let statusByte := (b.get 3).toNat
      if statusByte ∉ [0, 1, 2, 3] then .error .badStatus
      else if statusByte = 3 then .error .stallOnWire
      else
        let pid := field b 4 8
        let timestamp := field b 8 16
        let nonce := field b 16 24
        let payload := field b 24 28
        if pid ∈ [0, 1] then .error .badPid
        else if timestamp = 0xFFFFFFFFFFFFFFFF then .error .badTimestamp
        else if nonce = 0xFFFFFFFFFFFFFFFF ∧ statusByte ≠ 2 then .error .badNonce
        else .ok ⟨statusOf statusByte, pid, timestamp, nonce, payload⟩

/-! ### Node -/

namespace Node

/-- `ToUint32`, which the bit operators of JavaScript apply to their operands. -/
def toUint32 (x : Int) : UInt32 := ⟨BitVec.ofInt 32 x⟩

/-- The operators give signed numbers of 32 bits, but for `>>>`. -/
def signed (word : UInt32) : Int := word.toBitVec.toInt

def bitAnd (x y : Int) : Int := signed (toUint32 x &&& toUint32 y)

def bitXor (x y : Int) : Int := signed (toUint32 x ^^^ toUint32 y)

def shiftRight (x : Int) (n : UInt32) : Int := (toUint32 x >>> n).toNat

def polyReflected : Int := 0x82f63b78

/-- The body of the inner loop of `CRC_TABLE`. -/
def tableRound (c : Int) : Int :=
  if bitAnd c 1 ≠ 0 then bitXor (shiftRight c 1) polyReflected else shiftRight c 1

/-- A `Uint32Array`. -/
def crcTable : Vector UInt32 256 := Vector.ofFn fun i =>
  toUint32 (shiftRight (tableRound^[8] (shiftRight (i : Nat) 0)) 0)

/-- The body of the loop of `crc32c`. -/
def crcUpdate (crc : Int) (byte : UInt8) : Int :=
  let idx := shiftRight (bitAnd (bitXor crc byte.toNat) 0xff) 0
  shiftRight (bitXor ((crcTable[idx.toNat]?.getD 0).toNat) (shiftRight crc 8)) 0

def crc32c (data : Bytes) : Int :=
  shiftRight (bitXor (data.foldl crcUpdate (shiftRight 0xffffffff 0)) 0xffffffff) 0

def decode (b : Bytes32) : Except DecodeErrorKind Decoded :=
  if b.get 0 ≠ 0x56 ∨ b.get 1 ≠ 0x41 then .error .badMagic
  else if b.get 2 ≠ 0x02 then .error .badVersion
  else
    let storedCrc : Int := field b 28 32
    let computedCrc := crc32c (b.slice 0 28)
    if storedCrc ≠ computedCrc then .error .badCrc
    else
      let statusByte := (b.get 3).toNat
      if statusByte > 3 then .error .badStatus
      else if statusByte = 3 then .error .stallOnWire
      else
        let pid := field b 4 8
        let timestamp := field b 8 16
        let nonce := field b 16 24
        let payload := field b 24 28
        if pid = 0 ∨ pid = 1 then .error .badPid
        else if timestamp = 0xffffffffffffffff then .error .badTimestamp
        else if nonce = 0xffffffffffffffff ∧ statusByte ≠ 2 then .error .badNonce
        else .ok ⟨statusOf statusByte, pid, timestamp, nonce, payload⟩

theorem toUint32_natCast (n : Nat) : toUint32 n = UInt32.ofNat n := by
  rw [toUint32, BitVec.ofInt_natCast]
  rfl

@[simp] theorem toUint32_toNat (word : UInt32) : toUint32 word.toNat = word := by
  rw [toUint32_natCast, UInt32.ofNat_toNat]

@[simp] theorem toUint32_signed (word : UInt32) : toUint32 (signed word) = word := by
  rw [toUint32, signed, BitVec.ofInt_toInt]

@[simp] theorem toUint32_bitXor (x y : Int) :
    toUint32 (bitXor x y) = toUint32 x ^^^ toUint32 y := toUint32_signed _

@[simp] theorem toUint32_bitAnd (x y : Int) :
    toUint32 (bitAnd x y) = toUint32 x &&& toUint32 y := toUint32_signed _

@[simp] theorem toUint32_shiftRight (x : Int) (n : UInt32) :
    toUint32 (shiftRight x n) = toUint32 x >>> n := toUint32_toNat _

theorem toUint32_tableRound (c : Int) :
    toUint32 (tableRound c) = Crc32c.tableRound (toUint32 c) := by
  have odd : bitAnd c 1 ≠ 0 ↔ toUint32 c &&& 1 ≠ 0 := by
    refine not_congr ⟨fun none => ?_, fun none => ?_⟩
    · have same := congrArg toUint32 none
      rwa [toUint32_bitAnd] at same
    · exact congrArg signed none
  unfold tableRound Crc32c.tableRound
  simp only [odd]
  split
  · rw [toUint32_bitXor, toUint32_shiftRight]
    rfl
  · rw [toUint32_shiftRight]

theorem crcTable_eq : crcTable = Crc32c.buildTable := by
  have rounds := Function.Semiconj.iterate_right (f := toUint32) toUint32_tableRound 8
  unfold crcTable Crc32c.buildTable
  congr 1
  funext i
  rw [toUint32_shiftRight, rounds.eq, toUint32_shiftRight, toUint32_natCast, UInt32.shiftRight_zero,
    UInt32.shiftRight_zero]

/-- The register of the loop is a word at all times. -/
theorem toUint32_crcUpdate (crc : Int) (byte : UInt8) :
    Crc32c.crcUpdate (toUint32 crc) byte = toUint32 (crcUpdate crc byte) := by
  have index : (shiftRight (bitAnd (bitXor crc byte.toNat) 0xff) 0).toNat =
      ((toUint32 crc ^^^ byte.toUInt32) &&& 0xFF).toNat := by
    rw [shiftRight, Int.toNat_natCast, UInt32.shiftRight_zero, toUint32_bitAnd, toUint32_bitXor,
      toUint32_natCast, UInt32.ofNat_uInt8ToNat]
    rfl
  unfold crcUpdate Crc32c.crcUpdate
  simp only [index, crcTable_eq, Vector.getElem?_eq_getElem (Crc32c.low_lt _), Option.getD_some,
    toUint32_shiftRight, toUint32_bitXor, toUint32_toNat, UInt32.shiftRight_zero]

theorem crc32c_eq (data : Bytes) : crc32c data = (Crc32c.compute data).toNat := by
  have folded := @List.foldl_hom _ _ _ toUint32 _ _ data (shiftRight 0xffffffff 0) toUint32_crcUpdate
  rw [crc32c, shiftRight, toUint32_bitXor, ← folded, UInt32.shiftRight_zero, ← Ports.crc32c_eq]
  rfl

end Node

/-! ### .NET -/

namespace DotNet

def reflectedPoly : UInt32 := 0x82F63B78

def buildTable : Vector UInt32 256 := Vector.ofFn fun i =>
  (fun c : UInt32 => if c &&& 1 ≠ 0 then (c >>> 1) ^^^ reflectedPoly else c >>> 1)^[8] (UInt32.ofNat i)

def tableIndex (crc : UInt32) (byte : UInt8) : UInt32 := (crc ^^^ byte.toUInt32) &&& 0xFF

theorem tableIndex_lt (crc : UInt32) (byte : UInt8) : (tableIndex crc byte).toNat < 256 :=
  Crc32c.low_lt _

/-- The body of the loop of `Crc32C.Compute`. -/
def crcUpdate (crc : UInt32) (byte : UInt8) : UInt32 :=
  buildTable.get ⟨(tableIndex crc byte).toNat, tableIndex_lt crc byte⟩ ^^^ (crc >>> 8)

def compute (data : Bytes) : UInt32 := data.foldl crcUpdate 0xFFFFFFFF ^^^ 0xFFFFFFFF

theorem compute_eq (data : Bytes) : compute data = Crc32c.compute data := crc32c_eq data

/-- The `switch` of `Codec.Decode`. -/
def readStatus (statusByte : UInt8) : Except DecodeErrorKind Status :=
  if statusByte = 0x00 then .ok .ok
  else if statusByte = 0x01 then .ok .degraded
  else if statusByte = 0x02 then .ok .critical
  else if statusByte = 0x03 then .error .stallOnWire
  else .error .badStatus

/-- `Codec.Decode`. -/
def decode (wire : Bytes32) : Except DecodeErrorKind WireFrame :=
  if wire.get 0 ≠ 0x56 ∨ wire.get 1 ≠ 0x41 then .error .badMagic
  else if wire.get 2 ≠ 0x02 then .error .badVersion
  else
    let actual := UInt32.ofNat (field wire 28 32)
    let expected := compute (wire.slice 0 28)
    if actual ≠ expected then .error .badCrc
    else
      match readStatus (wire.get 3) with
      | .error kind => .error kind
      | .ok status =>
        let pid := UInt32.ofNat (field wire 4 8)
        let timestamp := UInt64.ofNat (field wire 8 16)
        let nonce := UInt64.ofNat (field wire 16 24)
        let payload := UInt32.ofNat (field wire 24 28)
        if pid = 0 ∨ pid = 1 then .error .badPid
        else if timestamp = 0xFFFFFFFFFFFFFFFF then .error .badTimestamp
        else if nonce = 0xFFFFFFFFFFFFFFFF ∧ status ≠ .critical then .error .badNonce
        else .ok (WireFrame.new status pid timestamp nonce payload)

end DotNet

/-! ### Agreement -/

def kindOf : DecodeError → DecodeErrorKind
  | .badMagic => .badMagic
  | .badVersion => .badVersion
  | .badCrc _ _ => .badCrc
  | .badStatus _ => .badStatus
  | .stallOnWire => .stallOnWire
  | .badPid _ => .badPid
  | .badTimestamp _ => .badTimestamp
  | .badNonce _ _ => .badNonce

/-- The fields of a frame, without their widths. -/
def fieldsOf (f : WireFrame) : Decoded :=
  ⟨f.status, f.pid.toNat, f.timestamp.toNat, f.nonce.toNat, f.payload.toNat⟩

variable (b : Bytes32)

theorem field_lt {first last : Nat} (order : first ≤ last) (inside : last ≤ 32) :
    field b first last < 2 ^ (8 * (last - first)) := by
  rw [← WireFrame.length_slice b order inside]
  exact Bytes.fromLe_lt _

/-- No field is cut short by its width. -/
theorem toNat_fields :
    (UInt32.ofNat (field b 4 8)).toNat = field b 4 8 ∧
      (UInt64.ofNat (field b 8 16)).toNat = field b 8 16 ∧
      (UInt64.ofNat (field b 16 24)).toNat = field b 16 24 ∧
      (UInt32.ofNat (field b 24 28)).toNat = field b 24 28 ∧
      (UInt32.ofNat (field b 28 32)).toNat = field b 28 32 := by
  refine ⟨UInt32.toNat_ofNat_of_lt' ?_, UInt64.toNat_ofNat_of_lt' ?_, UInt64.toNat_ofNat_of_lt' ?_,
    UInt32.toNat_ofNat_of_lt' ?_, UInt32.toNat_ofNat_of_lt' ?_⟩
  all_goals exact field_lt b (by decide) (by decide)

theorem tryFromU8_eq (byte : UInt8) : Status.tryFromU8 byte =
    if byte.toNat > 3 then .error (.badStatus byte) else .ok (statusOf byte.toNat) := by
  simp only [Status.tryFromU8, ← UInt8.toNat_inj]
  generalize byte.toNat = n
  match n with
  | 0 | 1 | 2 | 3 => rfl
  | n + 4 => simp

theorem statusOf_eq_iff {n : Nat} (named : ¬ n > 3) :
    (statusOf n = .stall ↔ n = 3) ∧ (statusOf n = .critical ↔ n = 2) := by
  have cases : n = 0 ∨ n = 1 ∨ n = 2 ∨ n = 3 := by omega
  rcases cases with rfl | rfl | rfl | rfl <;> decide

theorem magic_iff {first second : UInt8} :
    (first, second) ≠ Vlp.magic ↔ first ≠ 0x56 ∨ second ≠ 0x41 := by
  rw [Vlp.magic, ne_eq, Prod.mk.injEq, not_and_or]

/-- The checks of the reference decoder, on numbers. -/
theorem decode_fields :
    ((WireFrame.decode b).map fieldsOf).mapError kindOf =
      if b.get 0 ≠ 0x56 ∨ b.get 1 ≠ 0x41 then .error .badMagic
      else if b.get 2 ≠ 0x02 then .error .badVersion
      else if field b 28 32 ≠ (Crc32c.compute (b.slice 0 28)).toNat then .error .badCrc
      else if (b.get 3).toNat > 3 then .error .badStatus
      else if (b.get 3).toNat = 3 then .error .stallOnWire
      else if field b 4 8 = 0 ∨ field b 4 8 = 1 then .error .badPid
      else if field b 8 16 = 0xFFFFFFFFFFFFFFFF then .error .badTimestamp
      else if field b 16 24 = 0xFFFFFFFFFFFFFFFF ∧ (b.get 3).toNat ≠ 2 then .error .badNonce
      else .ok ⟨statusOf (b.get 3).toNat, field b 4 8, field b 8 16, field b 16 24,
        field b 24 28⟩ := by
  obtain ⟨pid, timestamp, nonce, payload, crc⟩ := toNat_fields b
  have top : Machine.u64Bound - 1 = 0xFFFFFFFFFFFFFFFF := rfl
  unfold field at *
  unfold WireFrame.decode
  simp only [magic_iff, Vlp.version, ne_eq, ← UInt32.toNat_inj, crc, pid, timestamp, nonce, tryFromU8_eq,
    nonceTerminal, top, UInt32.toNat_zero, UInt32.toNat_one]
  split
  · rfl
  split
  · rfl
  split
  · rfl
  by_cases named : (b.get 3).toNat > 3
  · rw [if_pos named, if_pos named]
    rfl
  obtain ⟨stall, critical⟩ := statusOf_eq_iff named
  rw [if_neg named, if_neg named]
  simp only [stall, critical]
  split
  · rfl
  split
  · rfl
  split
  · rfl
  split
  · rfl
  rw [Except.map, fieldsOf]
  simp only [pid, timestamp, nonce, payload]
  rfl

theorem slice_magic : ∀ b : Bytes32, b.slice 0 2 = [b.get 0, b.get 1]
  | ⟨_ :: _ :: _, _⟩ => rfl

theorem python_decode : Python.decode b = ((WireFrame.decode b).map fieldsOf).mapError kindOf := by
  have magic : b.slice 0 2 ≠ [0x56, 0x41] ↔ b.get 0 ≠ 0x56 ∨ b.get 1 ≠ 0x41 := by
    rw [slice_magic, ne_eq, List.cons.injEq, List.cons.injEq, not_and_or]
    simp
  have status (n : Nat) : n ∉ [0, 1, 2, 3] ↔ n > 3 := by
    simp
    omega
  have reserved (n : Nat) : n ∈ [0, 1] ↔ n = 0 ∨ n = 1 := by simp
  rw [decode_fields, Python.decode]
  simp only [magic, status, reserved, Python.crc32c_eq]

theorem node_decode : Node.decode b = ((WireFrame.decode b).map fieldsOf).mapError kindOf := by
  rw [decode_fields, Node.decode]
  simp only [Node.crc32c_eq, ne_eq, Int.natCast_inj]

theorem DotNet.readStatus_eq (byte : UInt8) : readStatus byte =
    match Status.tryFromU8 byte with
    | .error e => .error (kindOf e)
    | .ok status => if status = .stall then .error .stallOnWire else .ok status := by
  unfold readStatus Status.tryFromU8
  split
  · rfl
  split
  · rfl
  split
  · rfl
  split
  · rfl
  · rfl

theorem dotNet_decode : DotNet.decode b = (WireFrame.decode b).mapError kindOf := by
  have top (n : UInt64) : n.toNat = Machine.u64Bound - 1 ↔ n = 0xFFFFFFFFFFFFFFFF :=
    ⟨fun same => UInt64.toNat_inj.mp same, fun same => same ▸ rfl⟩
  unfold DotNet.decode WireFrame.decode field
  simp only [magic_iff, Vlp.version, DotNet.compute_eq, DotNet.readStatus_eq, nonceTerminal, top]
  split
  · rfl
  next own =>
  split
  · rfl
  next version =>
  split
  · rfl
  cases Status.tryFromU8 (b.get 3) with
  | error e => rfl
  | ok status =>
    by_cases stall : status = .stall
    · simp only [if_pos stall]
      rfl
    simp only [if_neg stall]
    split
    · rfl
    split
    · rfl
    split
    · rfl
    · obtain ⟨first, second⟩ := not_or.mp own
      rw [not_not.mp first, not_not.mp second, not_not.mp version]
      rfl

/-- On every buffer the ports accept what the reference accepts, with the same fields, and
report the same kind of error for what it rejects. -/
theorem decoders_agree (b : Bytes32) :
    Python.decode b = ((WireFrame.decode b).map fieldsOf).mapError kindOf ∧
      Node.decode b = ((WireFrame.decode b).map fieldsOf).mapError kindOf ∧
      (DotNet.decode b).map fieldsOf = ((WireFrame.decode b).map fieldsOf).mapError kindOf :=
  ⟨python_decode b, node_decode b, by
    rw [dotNet_decode]
    cases WireFrame.decode b <;> rfl⟩

/-- The decoder of .NET reads just what the encoders of Go, .NET and Python write for frames that
an agent may send. -/
theorem ports_round_trip (f : WireFrame) :
    DotNet.decode b = .ok f ↔ f.Valid ∧
      encodeInto f.status.toU8 f.pid f.timestamp f.nonce f.payload = b ∧
      Python.encodeInto f.status f.pid.toNat f.timestamp.toNat f.nonce.toNat f.payload.toNat =
        some b := by
  have read : DotNet.decode b = .ok f ↔ WireFrame.decode b = .ok f := by
    rw [dotNet_decode]
    cases WireFrame.decode b <;> simp [Except.mapError]
  rw [read, WireFrame.decode_eq_ok_iff_encode, encodeInto_eq, Python.encodeInto_eq]
  refine and_congr_right fun valid => ?_
  have whole : WireFrame.new f.status f.pid f.timestamp f.nonce f.payload = f := by
    rw [WireFrame.new, ← valid.magic, ← valid.version]
  rw [whole, Option.some_inj, and_self]

end Varta.Ports
