import Varta.Vlp.Codec

/-!
# The encoders of the ports

The frame encoders of `clients/python`, `clients/go`, `clients/java` and `clients/dotnet`, each
with the integers of its language, and that each of them writes the bytes of `Frame::encode`.
-/
namespace Varta.Ports

open Vlp

/-- The statuses that an agent may report. -/
inductive AgentStatus where
  | ok
  | degraded
  | critical
  deriving DecidableEq, Repr

def AgentStatus.status : AgentStatus → Status
  | .ok => .ok
  | .degraded => .degraded
  | .critical => .critical

@[simp] theorem AgentStatus.status_ne_stall (status : AgentStatus) : status.status ≠ .stall := by
  cases status <;> simp [AgentStatus.status]

/-! ### Python -/

namespace Python

def polyReflected : Nat := 0x82F63B78

/-- The body of the inner loop of `_build_crc_table`. -/
def tableRound (c : Nat) : Nat := if c &&& 1 ≠ 0 then (c >>> 1) ^^^ polyReflected else c >>> 1

def crcTable : Vector Nat 256 := Vector.ofFn fun i => tableRound^[8] i

/-- The body of the loop of `crc32c`. -/
def crcUpdate (crc : Nat) (byte : UInt8) : Nat :=
  let idx := (crc ^^^ byte.toNat) &&& 0xFF
  have inside : idx < 256 := Nat.lt_of_le_of_lt Nat.and_le_right (by decide)
  crcTable[idx] ^^^ (crc >>> 8)

def crc32c (data : Bytes) : Nat := data.foldl crcUpdate 0xFFFFFFFF ^^^ 0xFFFFFFFF

/-- What `struct.pack_into` writes in front of the checksum. -/
def covered (status : Status) (pid timestamp nonce payload : Nat) : Bytes :=
  [0x56, 0x41, 0x02, status.toU8] ++ (Bytes.toLe 4 pid ++ (Bytes.toLe 8 timestamp ++
    (Bytes.toLe 8 nonce ++ Bytes.toLe 4 payload)))

@[simp] theorem length_covered (status : Status) (pid timestamp nonce payload : Nat) :
    (covered status pid timestamp nonce payload).length = 28 := by simp [covered]

/-- `struct` raises its `error` for an integer that a field has no room for. -/
def encodeInto (status : Status) (pid timestamp nonce payload : Nat) : Option Bytes32 :=
  if pid < 2 ^ 32 ∧ timestamp < 2 ^ 64 ∧ nonce < 2 ^ 64 ∧ payload < 2 ^ 32 then
    let crc := crc32c (covered status pid timestamp nonce payload)
    if crc < 2 ^ 32 then
      some ⟨covered status pid timestamp nonce payload ++ Bytes.toLe 4 crc, by simp⟩
    else none
  else none

theorem tableRound_toNat (c : UInt32) : tableRound c.toNat = (Crc32c.tableRound c).toNat := by
  have shifted : (c >>> 1).toNat = c.toNat >>> 1 := rfl
  have odd : c &&& 1 ≠ 0 ↔ c.toNat &&& 1 ≠ 0 := by
    rw [ne_eq, ← UInt32.toNat_inj, UInt32.toNat_and]
    rfl
  unfold tableRound Crc32c.tableRound
  simp only [odd]
  split
  · rw [UInt32.toNat_xor, shifted]
    rfl
  · rw [shifted]

theorem iterate_tableRound_toNat (n : Nat) (c : UInt32) :
    tableRound^[n] c.toNat = (Crc32c.tableRound^[n] c).toNat := by
  induction n generalizing c with
  | zero => rfl
  | succ n ih => rw [Function.iterate_succ_apply, tableRound_toNat, ih, Function.iterate_succ_apply]

theorem crcUpdate_toNat (crc : UInt32) (byte : UInt8) :
    crcUpdate crc.toNat byte = (Crc32c.crcUpdate crc byte).toNat := by
  have index : (crc.toNat ^^^ byte.toNat) &&& 0xFF = ((crc ^^^ byte.toUInt32) &&& 0xFF).toNat := by
    rw [UInt32.toNat_and, UInt32.toNat_xor, UInt8.toNat_toUInt32]
    rfl
  unfold crcUpdate Crc32c.crcUpdate
  dsimp only
  rw [UInt32.toNat_xor, crcTable, Crc32c.buildTable, Vector.getElem_ofFn, Vector.getElem_ofFn]
  dsimp only
  rw [index, UInt32.ofNat_toNat, iterate_tableRound_toNat]
  rfl

theorem crc32c_eq (data : Bytes) : crc32c data = (Crc32c.compute data).toNat := by
  have folded (crc : UInt32) :
      data.foldl crcUpdate crc.toNat = (data.foldl Crc32c.crcUpdate crc).toNat := by
    induction data generalizing crc with
    | nil => rfl
    | cons byte data ih => rw [List.foldl_cons, crcUpdate_toNat, ih, List.foldl_cons]
  have inverted (crc : UInt32) : (~~~ crc).toNat = crc.toNat ^^^ 0xFFFFFFFF := by
    rw [← UInt32.xor_neg_one, UInt32.toNat_xor]
    rfl
  rw [crc32c, Crc32c.compute, inverted, ← folded]
  rfl

/-- In range nothing is raised, and the frame is the reference's. -/
theorem encodeInto_eq (status : Status) (pid : UInt32) (timestamp nonce : UInt64)
    (payload : UInt32) :
    encodeInto status pid.toNat timestamp.toNat nonce.toNat payload.toNat =
      some (WireFrame.new status pid timestamp nonce payload).encode := by
  have same : covered status pid.toNat timestamp.toNat nonce.toNat payload.toNat =
      (WireFrame.new status pid timestamp nonce payload).covered := rfl
  unfold encodeInto
  rw [if_pos ⟨pid.toNat_lt, timestamp.toNat_lt, nonce.toNat_lt, payload.toNat_lt⟩]
  simp only [same, crc32c_eq, UInt32.toNat_lt, if_true]
  rfl

end Python

/-! ### Go and .NET -/

/-- `CRC32C` in Go and `Crc32C.Compute` in C#. -/
def crc32c (data : Bytes) : UInt32 := data.foldl Crc32c.crcUpdate 0xFFFFFFFF ^^^ 0xFFFFFFFF

theorem crc32c_eq (data : Bytes) : crc32c data = Crc32c.compute data := by
  rw [crc32c, Crc32c.compute, ← UInt32.xor_neg_one]
  rfl

/-- A status is a byte, and nothing in the language keeps it to the named values. -/
def covered (status : UInt8) (pid : UInt32) (timestamp nonce : UInt64) (payload : UInt32) : Bytes :=
  [0x56, 0x41, 0x02, status] ++ (Bytes.toLe 4 pid.toNat ++ (Bytes.toLe 8 timestamp.toNat ++
    (Bytes.toLe 8 nonce.toNat ++ Bytes.toLe 4 payload.toNat)))

/-- `EncodeInto` in Go and `Codec.EncodeInto` in C#. -/
def encodeInto (status : UInt8) (pid : UInt32) (timestamp nonce : UInt64) (payload : UInt32) :
    Bytes32 :=
  ⟨covered status pid timestamp nonce payload ++
    Bytes.toLe 4 (crc32c (covered status pid timestamp nonce payload)).toNat, by simp [covered]⟩

theorem encodeInto_eq (status : Status) (pid : UInt32) (timestamp nonce : UInt64)
    (payload : UInt32) :
    encodeInto status.toU8 pid timestamp nonce payload =
      (WireFrame.new status pid timestamp nonce payload).encode := by
  unfold encodeInto
  simp only [crc32c_eq]
  rfl

/-- A pid is an `int` until it goes into the frame. -/
theorem ofInt_toNat (pid : UInt32) : UInt32.ofInt pid.toNat = pid := by
  have bound := pid.toNat_lt
  have reduced : ((pid.toNat : Int) % 2 ^ 32).toNat = pid.toNat := by omega
  rw [UInt32.ofInt, reduced, UInt32.ofNat_toNat]

/-! ### Java -/

namespace Java

/-- `java.util.zip.CRC32C`: the shift register of the polynomial. -/
def crc32c (data : Bytes) : UInt32 :=
  ⟨~~~ Crc.remainder Crc32c.poly (BitVec.allOnes 32) data.bits⟩

def covered (status : AgentStatus) (pid : Int32) (timestamp nonce : Int64) (payload : Int32) :
    Bytes :=
  [0x56, 0x41, 0x02, status.status.toU8] ++ (Bytes.toLe 4 pid.toUInt32.toNat ++
    (Bytes.toLe 8 timestamp.toUInt64.toNat ++ (Bytes.toLe 8 nonce.toUInt64.toNat ++
      Bytes.toLe 4 payload.toUInt32.toNat)))

def encodeInto (status : AgentStatus) (pid : Int32) (timestamp nonce : Int64) (payload : Int32) :
    Bytes32 :=
  ⟨covered status pid timestamp nonce payload ++
    Bytes.toLe 4 (crc32c (covered status pid timestamp nonce payload)).toNat, by simp [covered]⟩

theorem crc32c_eq (data : Bytes) : crc32c data = Crc32c.compute data := by
  rw [← UInt32.toBitVec_inj, crc32c, Crc32c.compute, UInt32.toBitVec_not,
    Crc32c.toBitVec_foldl_crcUpdate]
  rfl

theorem encodeInto_eq (status : AgentStatus) (pid : UInt32) (timestamp nonce : UInt64)
    (payload : UInt32) :
    encodeInto status pid.toInt32 timestamp.toInt64 nonce.toInt64 payload.toInt32 =
      (WireFrame.new status.status pid timestamp nonce payload).encode := by
  unfold encodeInto
  simp only [crc32c_eq]
  rfl

end Java

end Varta.Ports
