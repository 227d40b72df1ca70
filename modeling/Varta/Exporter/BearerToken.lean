import Varta.Lib.Delimited
import Varta.Vlp.Util

/-!
# Bearer tokens

`exporter/bearer_token.rs`: the token of the first `Authorization` header of a request, and the
grammar that this parser recognises.
-/
namespace Varta.Exporter

open Delimited
open Vlp (Bytes32 hexVal decodePairs decodeHex32)

def cr : UInt8 := 0x0D

def lf : UInt8 := 0x0A

def findCrlf (buf : Bytes) : Option Nat := first cr lf buf

def isOws (b : UInt8) : Bool := b = 0x20 ∨ b = 0x09

def toAsciiLowercase (b : UInt8) : UInt8 := if 0x41 ≤ b ∧ b ≤ 0x5A then b + 0x20 else b

def eqIgnoreAsciiCase (s t : Bytes) : Bool := s.map toAsciiLowercase = t.map toAsciiLowercase

/-- `HDR`. -/
def hdr : Bytes := Bytes.ofString "authorization:"

/-- `BEARER`. -/
def bearer : Bytes := Bytes.ofString "bearer "

/-- What follows the name of an `Authorization` header. -/
def parseCredentials (value : Bytes) : Option Bytes32 :=
  let value := value.dropWhile isOws
  if value.length < bearer.length then none
  else if !eqIgnoreAsciiCase (value.take bearer.length) bearer then none
  else
    let tokenPart := (value.drop bearer.length).dropWhile isOws
    if tokenPart.length < 64 then none
    else if (tokenPart.drop 64).any fun b => !isOws b then none
    else (decodeHex32 (tokenPart.take 64)).toOption

/-- The loop over the lines behind the request line. -/
def parseHeaders (rest : Bytes) : Option Bytes32 :=
  match found : findCrlf rest with
  | none => none
  | some eol =>
    let line := rest.take eol
    if line.isEmpty then none
    else if hdr.length ≤ line.length && eqIgnoreAsciiCase (line.take hdr.length) hdr then
      parseCredentials (line.drop hdr.length)
    else parseHeaders (rest.drop (eol + 2))
termination_by rest.length
decreasing_by
  obtain ⟨line, tail, rfl, rfl, -⟩ := first_eq_some found
  simp only [List.length_drop, List.length_append, List.length_cons]
  omega

def parseAuthorizationBearer (buf : Bytes) : Option Bytes32 :=
  match findCrlf buf with
  | none => none
  | some eol => parseHeaders (buf.drop (eol + 2))

/-! ### The grammar -/

/-- `HDR` in any case, and what follows it. -/
def Authorization (line value : Bytes) : Prop :=
  ∃ name, line = name ++ value ∧ eqIgnoreAsciiCase name hdr

def Blanks (bytes : Bytes) : Prop := ∀ b ∈ bytes, isOws b

/-- The values of the two digits of each byte. -/
def nibbleValues (bytes : Bytes) : List (Option UInt8) :=
  bytes.flatMap fun b : UInt8 => [some (b >>> 4), some (b &&& 0x0F)]

/-- Two hex digits for each byte of the token. -/
def HexOf (hex : Bytes) (token : Bytes32) : Prop := hex.map hexVal = nibbleValues token.bytes

/-- `bearer`, a space and the token, with blanks around. -/
def Credentials (value : Bytes) (token : Bytes32) : Prop :=
  ∃ before scheme between hex after,
    value = before ++ (scheme ++ (between ++ (hex ++ after))) ∧ Blanks before ∧
      eqIgnoreAsciiCase scheme bearer ∧ Blanks between ∧ HexOf hex token ∧ Blanks after

/-! ### Hex digits -/

theorem nibbleValues_cons (b : UInt8) (rest : Bytes) :
    nibbleValues (b :: rest) = some (b >>> 4) :: some (b &&& 0x0F) :: nibbleValues rest := rfl

theorem hexVal_lt {b v : UInt8} (digit : hexVal b = some v) : v < 16 := by
  have all : ∀ b : UInt8, (hexVal b).all (· < 16) :=
    Bytes.forall_of_fin (by decide +kernel)
  have small := all b
  rw [digit] at small
  simpa using small

/-- A byte is put together from its nibbles. -/
theorem nibbles_of_byte {hi lo : UInt8} (high : hi < 16) (low : lo < 16) :
    (hi <<< 4 ||| lo) >>> 4 = hi ∧ (hi <<< 4 ||| lo) &&& 0x0F = lo := by
  have all : ∀ hi lo : Fin 16,
      (UInt8.ofNat hi <<< 4 ||| UInt8.ofNat lo) >>> 4 = UInt8.ofNat hi ∧
        (UInt8.ofNat hi <<< 4 ||| UInt8.ofNat lo) &&& 0x0F = UInt8.ofNat lo := by
    decide +kernel
  have joined := all ⟨hi.toNat, UInt8.lt_iff_toNat_lt.mp high⟩ ⟨lo.toNat, UInt8.lt_iff_toNat_lt.mp low⟩
  simpa using joined

variable {hex value : Bytes} {token : Bytes32}

theorem decodePairs_eq_ok_iff {i : Nat} {out : Bytes} (even : hex.length % 2 = 0) :
    decodePairs i hex = .ok out ↔ hex.map hexVal = nibbleValues out := by
  induction i, hex using Varta.Vlp.decodePairs.induct generalizing out with
  | case1 i hiChar loChar rest ih =>
    have even : rest.length % 2 = 0 := by
      simp only [List.length_cons] at even
      omega
    simp only [decodePairs, bind, Except.bind, pure, Except.pure, List.map_cons]
    cases high : hexVal hiChar with
    | none =>
      simp only [Option.elim_none]
      cases out with
      | nil => simp [nibbleValues]
      | cons b out => simp [nibbleValues_cons]
    | some hi =>
      cases low : hexVal loChar with
      | none =>
        cases out with
        | nil => simp [nibbleValues]
        | cons b out => simp [nibbleValues_cons]
      | some lo =>
        obtain ⟨upper, lower⟩ := nibbles_of_byte (hexVal_lt high) (hexVal_lt low)
        simp only [Option.elim_some]
        constructor
        · intro decoded
          split at decoded
          · cases decoded
          next tail later =>
            cases decoded
            rw [nibbleValues_cons, upper, lower, (ih even).mp later]
        · intro values
          cases out with
          | nil => simp [nibbleValues] at values
          | cons b out =>
            simp only [nibbleValues_cons, List.cons.injEq, Option.some.injEq] at values
            obtain ⟨rfl, rfl, values⟩ := values
            rw [(ih even).mpr values, (Vlp.nibbles b).2.2]
  | case2 hex i short =>
    rcases hex with _ | ⟨a, _ | ⟨b, rest⟩⟩
    · cases out <;> simp [decodePairs, nibbleValues]
    · simp at even
    · exact absurd rfl (short a b rest)

theorem length_nibbleValues (bytes : Bytes) : (nibbleValues bytes).length = 2 * bytes.length := by
  induction bytes with
  | nil => rfl
  | cons b rest ih =>
    rw [nibbleValues_cons, List.length_cons, List.length_cons, ih, List.length_cons]
    omega

theorem HexOf.length (digits : HexOf hex token) :
    hex.length = 64 := by
  have lengths := congrArg List.length digits
  rw [List.length_map, length_nibbleValues, token.length_eq] at lengths
  exact lengths

theorem decodeHex32_toOption_iff (sized : hex.length = 64) :
    (decodeHex32 hex).toOption = some token ↔ HexOf hex token := by
  have pairs (out : Bytes) : decodePairs 0 hex = .ok out ↔ hex.map hexVal = nibbleValues out :=
    decodePairs_eq_ok_iff (by omega)
  unfold decodeHex32
  rw [dif_pos sized]
  split
  next out decoded =>
    simp only [Except.toOption, Option.some.injEq]
    constructor
    · rintro rfl
      exact (pairs out).mp decoded
    · intro values
      cases decoded.symm.trans ((pairs token.bytes).mpr values)
      rfl
  next e failed =>
    rw [HexOf, ← pairs, failed]
    simp [Except.toOption]

/-! ### One header -/

theorem eqIgnoreAsciiCase_length {name other : Bytes} (same : eqIgnoreAsciiCase name other) :
    name.length = other.length := by
  have lengths := congrArg List.length (of_decide_eq_true same)
  simpa using lengths

theorem blanks_takeWhile (bytes : Bytes) : Blanks (bytes.takeWhile isOws) :=
  List.all_eq_true.mp List.all_takeWhile

variable {line rest : Bytes}

/-- The blanks in front of anything else are skipped. -/
theorem dropWhile_blanks {before : Bytes} (blanks : Blanks before)
    (ends : ∀ b, rest.head? = some b → isOws b = false) :
    (before ++ rest).dropWhile isOws = rest := by
  rw [List.dropWhile_append_of_pos blanks]
  cases rest with
  | nil => rfl
  | cons b rest => rw [List.dropWhile_cons_of_neg (by simp [ends b rfl])]

theorem scheme_head {scheme : Bytes} (same : eqIgnoreAsciiCase scheme bearer) (rest : Bytes) (b : UInt8)
    (head : (scheme ++ rest).head? = some b) : isOws b = false := by
  have all : ∀ b : UInt8, toAsciiLowercase b = 0x62 → isOws b = false :=
    Bytes.forall_of_fin (by decide +kernel)
  have letters : scheme.map toAsciiLowercase = bearer.map toAsciiLowercase := of_decide_eq_true same
  have lower : bearer.map toAsciiLowercase = [0x62, 0x65, 0x61, 0x72, 0x65, 0x72, 0x20] := by
    decide +kernel
  rw [lower] at letters
  cases scheme with
  | nil => cases letters
  | cons c scheme =>
    cases head
    exact all _ (List.cons.inj letters).1

theorem hexOf_head (digits : HexOf hex token) (rest : Bytes) (b : UInt8)
    (head : (hex ++ rest).head? = some b) : isOws b = false := by
  have all : ∀ b : UInt8, (hexVal b).isSome → isOws b = false :=
    Bytes.forall_of_fin (by decide +kernel)
  have length := digits.length
  cases hex with
  | nil => cases length
  | cons c hex =>
    cases head
    apply all
    -- every digit has a value
    have member : hexVal b ∈ nibbleValues token.bytes := by
      rw [← show _ = nibbleValues token.bytes from digits]
      exact List.mem_cons_self ..
    simp only [nibbleValues, List.mem_flatMap, List.mem_cons, List.not_mem_nil, or_false] at member
    obtain ⟨_, _, value | value⟩ := member
    · rw [value]
      rfl
    · rw [value]
      rfl

theorem parseCredentials_iff :
    parseCredentials value = some token ↔ Credentials value token := by
  constructor
  · intro parsed
    unfold parseCredentials at parsed
    dsimp only at parsed
    have blanks_first := List.takeWhile_append_dropWhile (p := isOws) (l := value)
    generalize value.dropWhile isOws = skipped at parsed blanks_first
    have blanks_second :=
      List.takeWhile_append_dropWhile (p := isOws) (l := skipped.drop bearer.length)
    generalize (skipped.drop bearer.length).dropWhile isOws = tokenPart at parsed blanks_second
    split at parsed
    · cases parsed
    next long =>
      split at parsed
      · cases parsed
      next scheme =>
        split at parsed
        · cases parsed
        next sized =>
          split at parsed
          · cases parsed
          next trailing =>
            rw [decodeHex32_toOption_iff (by rw [List.length_take]; omega)] at parsed
            refine ⟨value.takeWhile isOws, skipped.take bearer.length,
              (skipped.drop bearer.length).takeWhile isOws, tokenPart.take 64, tokenPart.drop 64, ?_,
              blanks_takeWhile _, by simpa using scheme, blanks_takeWhile _, parsed, ?_⟩
            · rw [List.take_append_drop, blanks_second, List.take_append_drop, blanks_first]
            · intro b member
              have blank := List.any_eq_false.mp ((Bool.not_eq_true _).mp trailing) b member
              simpa using blank
  · rintro ⟨before, scheme, between, hex, after, rfl, leading, same, middle, digits, trailing⟩
    have scheme_length := eqIgnoreAsciiCase_length same
    have hex_length := digits.length
    unfold parseCredentials
    rw [dropWhile_blanks leading (scheme_head same _)]
    dsimp only
    rw [if_neg (by rw [List.length_append]; omega), ← scheme_length, List.take_left, List.drop_left,
      same, Bool.not_true, if_neg Bool.false_ne_true, dropWhile_blanks middle (hexOf_head digits _),
      if_neg (by rw [List.length_append]; omega), ← hex_length, List.take_left, List.drop_left]
    have blank : after.any (fun b => !isOws b) = false := by
      rw [List.any_eq_false]
      intro b member
      simp [trailing b member]
    rw [blank, if_neg Bool.false_ne_true, decodeHex32_toOption_iff hex_length]
    exact digits

/-! ### The lines of a request -/

/-- The line is an `Authorization` header. -/
def IsAuthorization (line : Bytes) : Prop := ∃ value, Authorization line value

theorem authorization_iff :
    (hdr.length ≤ line.length && eqIgnoreAsciiCase (line.take hdr.length) hdr) = true ↔
      IsAuthorization line := by
  rw [Bool.and_eq_true, decide_eq_true_iff]
  constructor
  · rintro ⟨-, same⟩
    exact ⟨line.drop hdr.length, line.take hdr.length, (List.take_append_drop ..).symm, same⟩
  · rintro ⟨value, name, rfl, same⟩
    rw [← eqIgnoreAsciiCase_length same, List.take_left, List.length_append]
    exact ⟨Nat.le_add_right .., same⟩

theorem Authorization.drop (named : Authorization line value) : line.drop hdr.length = value := by
  obtain ⟨name, rfl, same⟩ := named
  rw [← eqIgnoreAsciiCase_length same, List.drop_left]

theorem cr_ne_lf : cr ≠ lf := by decide

theorem findCrlf_line (unbroken : Unbroken cr lf line) (rest : Bytes) :
    findCrlf (line ++ cr :: lf :: rest) = some line.length :=
  first_append cr_ne_lf unbroken rest

theorem drop_line (line rest : Bytes) :
    (line ++ cr :: lf :: rest).drop (line.length + 2) = rest := by
  rw [← List.drop_drop, List.drop_left]
  rfl

/-- The loop at a line. -/
theorem parseHeaders_line (unbroken : Unbroken cr lf line) (rest : Bytes) :
    parseHeaders (line ++ cr :: lf :: rest) =
      if line.isEmpty then none
      else if hdr.length ≤ line.length && eqIgnoreAsciiCase (line.take hdr.length) hdr then
        parseCredentials (line.drop hdr.length)
      else parseHeaders rest := by
  rw [parseHeaders]
  split
  next missing =>
    rw [findCrlf_line unbroken] at missing
    cases missing
  next eol found =>
    rw [findCrlf_line unbroken] at found
    cases found
    rw [List.take_left, drop_line]

/-- Lines that the loop passes: no blank line, no `Authorization` header. -/
def Passed (line : Bytes) : Prop :=
  Unbroken cr lf line ∧ line ≠ [] ∧ ¬ IsAuthorization line

theorem parseHeaders_passed (passed : Passed line) (rest : Bytes) :
    parseHeaders (line ++ cr :: lf :: rest) = parseHeaders rest := by
  obtain ⟨unbroken, nonempty, other⟩ := passed
  rw [parseHeaders_line unbroken, if_neg (by simpa using nonempty),
    if_neg (mt authorization_iff.mp other)]

theorem parseHeaders_terminated {headers : List Bytes} (passed : ∀ line ∈ headers, Passed line)
    (rest : Bytes) : parseHeaders (terminated cr lf headers ++ rest) = parseHeaders rest := by
  induction headers with
  | nil => rfl
  | cons line headers ih =>
    rw [terminated_cons, List.append_assoc, List.cons_append, List.cons_append,
      parseHeaders_passed (passed line (List.mem_cons_self ..))]
    exact ih fun later member => passed later (List.mem_cons_of_mem _ member)

theorem parseHeaders_authorization (unbroken : Unbroken cr lf line)
    (named : Authorization line value) (rest : Bytes) :
    parseHeaders (line ++ cr :: lf :: rest) = parseCredentials value := by
  have long : hdr.length ≤ line.length := by
    obtain ⟨name, rfl, same⟩ := named
    rw [← eqIgnoreAsciiCase_length same, List.length_append]
    exact Nat.le_add_right ..
  have nonempty : line.isEmpty = false := by
    cases line with
    | nil => exact absurd long (by decide +kernel)
    | cons b line => rfl
  rw [parseHeaders_line unbroken, nonempty, if_neg Bool.false_ne_true,
    if_pos (authorization_iff.mpr ⟨value, named⟩), named.drop]

theorem parseHeaders_blank (rest : Bytes) : parseHeaders (cr :: lf :: rest) = none :=
  parseHeaders_line unbroken_nil rest

theorem parseHeaders_unbroken (unbroken : Unbroken cr lf rest) : parseHeaders rest = none := by
  rw [parseHeaders]
  split
  · rfl
  next eol found =>
    rw [findCrlf, first_eq_none_iff.mpr unbroken] at found
    cases found

/-- What the loop returns comes from the first `Authorization` header. -/
theorem parseHeaders_eq_some (parsed : parseHeaders rest = some token) :
    ∃ headers line value more, rest = terminated cr lf headers ++ (line ++ cr :: lf :: more) ∧
      (∀ line ∈ headers, Passed line) ∧ Unbroken cr lf line ∧ Authorization line value ∧
      Credentials value token := by
  -- each round leaves a shorter rest
  induction size : rest.length using Nat.strongRecOn generalizing rest with
  | _ n ih =>
    cases found : findCrlf rest with
    | none =>
      rw [parseHeaders_unbroken (first_eq_none_iff.mp found)] at parsed
      cases parsed
    | some eol =>
      obtain ⟨line, tail, rfl, -, unbroken⟩ := first_eq_some found
      rw [parseHeaders_line unbroken] at parsed
      split at parsed
      · cases parsed
      next nonempty =>
        split at parsed
        next named =>
          obtain ⟨value, authorization⟩ := authorization_iff.mp named
          rw [authorization.drop, parseCredentials_iff] at parsed
          exact ⟨[], line, value, tail, rfl, by simp, unbroken, authorization, parsed⟩
        next other =>
          have shorter : tail.length < n := by
            rw [← size, List.length_append, List.length_cons, List.length_cons]
            omega
          obtain ⟨headers, last, value, more, rfl, passed, rest⟩ := ih tail.length shorter parsed rfl
          refine ⟨line :: headers, last, value, more, ?_, ?_, rest⟩
          · rw [terminated_cons, List.append_assoc, List.cons_append, List.cons_append]
          · intro header member
            rcases List.mem_cons.mp member with rfl | member
            · exact ⟨unbroken, by simpa using nonempty, mt authorization_iff.mpr other⟩
            · exact passed header member

/-- Behind the request line the loop begins. -/
theorem parseAuthorizationBearer_request {request : Bytes} (unbroken : Unbroken cr lf request)
    (rest : Bytes) :
    parseAuthorizationBearer (request ++ cr :: lf :: rest) = parseHeaders rest := by
  simp only [parseAuthorizationBearer, findCrlf_line unbroken, drop_line]

/-- Behind any lines, the loop depends on what it makes of the rest. -/
theorem parseHeaders_congr {lines : List Bytes} (unbroken : ∀ line ∈ lines, Unbroken cr lf line)
    {rest' : Bytes} (same : parseHeaders rest = parseHeaders rest') :
    parseHeaders (terminated cr lf lines ++ rest) =
      parseHeaders (terminated cr lf lines ++ rest') := by
  induction lines with
  | nil => exact same
  | cons line lines ih =>
    have later := ih fun line member => unbroken line (List.mem_cons_of_mem _ member)
    have first := unbroken line (List.mem_cons_self ..)
    simp only [terminated_cons, List.append_assoc, List.cons_append, parseHeaders_line first, later]

/-- The loop ends at a blank line and at an `Authorization` header. -/
theorem parseHeaders_last (unbroken : Unbroken cr lf line) (last : line = [] ∨ IsAuthorization line)
    (rest rest' : Bytes) :
    parseHeaders (line ++ cr :: lf :: rest) = parseHeaders (line ++ cr :: lf :: rest') := by
  rcases last with rfl | ⟨value, authorization⟩
  · exact (parseHeaders_blank rest).trans (parseHeaders_blank rest').symm
  · rw [parseHeaders_authorization unbroken authorization,
      parseHeaders_authorization unbroken authorization]

theorem terminated_request (request : Bytes) (lines : List Bytes) (rest : Bytes) :
    terminated cr lf (request :: lines) ++ rest =
      request ++ cr :: lf :: (terminated cr lf lines ++ rest) := by
  rw [terminated_cons, List.append_assoc, List.cons_append, List.cons_append]

/-- The token is the one in the first `Authorization` header behind the request line and in
front of the first blank line, of lines that end with CRLF. What follows a blank line or an
`Authorization` header does not matter, nor does a last line without CRLF. -/
theorem parseAuthorizationBearer_exact :
    (∀ buf token, parseAuthorizationBearer buf = some token ↔
      ∃ request headers line value more,
        buf = terminated cr lf (request :: (headers ++ [line])) ++ more ∧ Unbroken cr lf request ∧
          (∀ header ∈ headers,
            Unbroken cr lf header ∧ header ≠ [] ∧ ¬ ∃ value, Authorization header value) ∧
          Unbroken cr lf line ∧ Authorization line value ∧ Credentials value token) ∧
    (∀ request headers line more, (∀ text ∈ request :: (headers ++ [line]), Unbroken cr lf text) →
      (line = [] ∨ ∃ value, Authorization line value) →
      parseAuthorizationBearer (terminated cr lf (request :: (headers ++ [line])) ++ more) =
        parseAuthorizationBearer (terminated cr lf (request :: (headers ++ [line])))) ∧
    ∀ lines rest, (∀ line ∈ lines, Unbroken cr lf line) → Unbroken cr lf rest →
      parseAuthorizationBearer (terminated cr lf lines ++ rest) =
        parseAuthorizationBearer (terminated cr lf lines) := by
  refine ⟨fun buf token => ⟨fun parsed => ?_, ?_⟩, ?_, ?_⟩
  · unfold parseAuthorizationBearer at parsed
    split at parsed
    · cases parsed
    next eol found =>
      obtain ⟨request, rest, rfl, rfl, unbroken⟩ := first_eq_some found
      rw [drop_line] at parsed
      obtain ⟨headers, line, value, more, rfl, passed, grammar⟩ := parseHeaders_eq_some parsed
      refine ⟨request, headers, line, value, more, ?_, unbroken, passed, grammar⟩
      simp [terminated_append]
  · rintro ⟨request, headers, line, value, more, rfl, first, passed, last, authorization, grammar⟩
    rw [terminated_request, parseAuthorizationBearer_request first, terminated_append,
      List.append_assoc, parseHeaders_terminated passed, terminated_request,
      parseHeaders_authorization last authorization, parseCredentials_iff]
    exact grammar
  · intro request headers line more unbroken last
    have first := unbroken request (List.mem_cons_self ..)
    have inner (text : Bytes) (member : text ∈ headers) : Unbroken cr lf text :=
      unbroken text (List.mem_cons_of_mem _ (List.mem_append_left _ member))
    have final := unbroken line (List.mem_cons_of_mem _ (List.mem_append_right _ (by simp)))
    rw [← List.append_nil (terminated cr lf (request :: (headers ++ [line]))), List.append_assoc,
      terminated_request, terminated_request, parseAuthorizationBearer_request first,
      parseAuthorizationBearer_request first, terminated_append, List.append_assoc,
      List.append_assoc, terminated_request, terminated_request]
    exact parseHeaders_congr inner (parseHeaders_last final last _ _)
  · intro lines rest unbroken open_ended
    cases lines with
    | nil =>
      -- there is no line at all
      have missing : findCrlf rest = none := first_eq_none_iff.mpr open_ended
      simp only [terminated_nil, List.nil_append, parseAuthorizationBearer, missing]
      rfl
    | cons request lines =>
      have first := unbroken request (List.mem_cons_self ..)
      rw [← List.append_nil (terminated cr lf (request :: lines)), List.append_assoc,
        terminated_request, terminated_request, parseAuthorizationBearer_request first,
        parseAuthorizationBearer_request first]
      refine parseHeaders_congr (fun line member => unbroken line (List.mem_cons_of_mem _ member)) ?_
      rw [List.nil_append, parseHeaders_unbroken open_ended, parseHeaders_unbroken unbroken_nil]

/-- A request with a header in front, another case and more blanks. -/
theorem parseAuthorizationBearer_exact_otherCase :
    parseAuthorizationBearer (terminated cr lf (Bytes.ofString "GET /metrics HTTP/1.1" ::
      ([Bytes.ofString "Host: observer"] ++ [Bytes.ofString "AUTHORIZATION:\tBearer  " ++
        (List.replicate 64 0x30 ++ [0x20])])) ++ [cr, lf]) = some Bytes32.zero := by
  refine (parseAuthorizationBearer_exact.1 _ _).mpr ⟨_, _, _, Bytes.ofString "\tBearer  " ++
    (List.replicate 64 0x30 ++ [0x20]), _, rfl, first_eq_none_iff.mp (by decide +kernel), ?_,
    first_eq_none_iff.mp (by decide +kernel), ?_, ?_⟩
  · intro header member
    obtain rfl := List.mem_singleton.mp member
    exact ⟨first_eq_none_iff.mp (by decide +kernel), by decide +kernel,
      mt authorization_iff.mpr (by decide +kernel)⟩
  · exact ⟨Bytes.ofString "AUTHORIZATION:", by decide +kernel, by decide +kernel⟩
  · exact ⟨[0x09], Bytes.ofString "Bearer ", [0x20], List.replicate 64 0x30, [0x20],
      by decide +kernel, by unfold Blanks; decide +kernel, by decide +kernel,
      by unfold Blanks; decide +kernel, by unfold HexOf; decide +kernel,
      by unfold Blanks; decide +kernel⟩

end Varta.Exporter
