import ServiceFramework.Lib.WhileLoop
import ServiceFramework.Lib.BitField

/-!
# URL encoding

`UrlEncode` and `URLDecode` (`base/util.cc`) on byte strings. A `char` is a byte, so its arithmetic
is modulo 256.

The decoder goes over its input in pieces, an escape of three bytes or any other byte, and appends
one byte for each. It reads past the terminating NUL if it comes to a `%` at the very end
(`decode_in_bounds_iff`). `fromHex` takes the digits `a` to `f` for `A` to `F` plus 32, which is
lost in the high half of an escape and in the low half is one bit too many, unless the high half
has this bit (`decode_well_formed_iff`). The encoder writes neither (`urlEncode_round_trip`).
-/

namespace ServiceFramework.Base

open WhileLoop

/-- `std::string`, its `char`s as bytes. -/
abbrev Bytes := List UInt8

/-- `isdigit` in the C locale; no negative `char` is a digit. -/
def isdigit (c : UInt8) : Bool := '0'.toUInt8 ≤ c && c ≤ '9'.toUInt8

/-- `isalnum` in the C locale. -/
def isalnum (c : UInt8) : Bool :=
  isdigit c || ('A'.toUInt8 ≤ c && c ≤ 'Z'.toUInt8) || ('a'.toUInt8 ≤ c && c ≤ 'z'.toUInt8)

/-! ## The encoder -/

/-- `ToHex`. -/
def toHex (x : UInt8) : UInt8 := if x > 9 then x + 55 else x + 48

/-- `UrlEncode`. -/
def urlEncode (str : Bytes) : Bytes :=
  str.foldl (fun strTemp c =>
    if isalnum c ∨ c = '-'.toUInt8 ∨ c = '_'.toUInt8 ∨ c = '.'.toUInt8 ∨ c = '~'.toUInt8 then
      strTemp ++ [c]
    else if c = ' '.toUInt8 then
      strTemp ++ ['+'.toUInt8]
    else
      strTemp ++ ['%'.toUInt8] ++ [toHex (c >>> 4)] ++ [toHex (c % 16)]) []

/-! ## The decoder -/

def fromHex (x : UInt8) : UInt8 := if isdigit x then x - '0'.toUInt8 else x - 'A'.toUInt8 + 10

/-- `sIn[ix]`: the byte, NUL at the end, and `none` further out. -/
def charAt (sIn : Bytes) (ix : ℕ) : Option UInt8 :=
  if ix = sIn.length then some 0 else sIn[ix]?

/-- The variables of the loop in `URLDecode`. The last one is not in the source: the positions of
the bytes taken in, in order. -/
structure Decoding where
  ix : ℕ := 0
  sOut : Bytes := []
  read : List ℕ := []
  deriving DecidableEq

/-- `ch` in the round that starts at `ix`, and the index at the end of the round's body; `none` if
it reads outside the string. -/
def decodeChar (sIn : Bytes) (ix : ℕ) : Option (UInt8 × ℕ) := do
  let c ← charAt sIn ix
  if c = '%'.toUInt8 then
    let high ← charAt sIn (ix + 1)
    let low ← charAt sIn (ix + 2)
    return (fromHex high <<< 4 ||| fromHex low, ix + 2)
  else if c = '+'.toUInt8 then
    return (' '.toUInt8, ix)
  else
    return (c, ix)

/-- One round of the loop, with the increment of its index. -/
def decodeRound (sIn : Bytes) (d : Decoding) : Option Decoding :=
  (decodeChar sIn d.ix).map fun (ch, ix) =>
    { ix := ix + 1
      sOut := d.sOut ++ [ch]
      read := d.read ++ List.range' d.ix (ix + 1 - d.ix) }

/-- At most `n` rounds of the loop. -/
def decodeRounds (sIn : Bytes) : ℕ → Decoding → Option Decoding :=
  loop (fun d => decide (d.ix < sIn.length)) (decodeRound sIn)

/-- The loop. It takes no more rounds than there are bytes (`decodeLoop_inBounds`). -/
def decodeLoop (sIn : Bytes) : Option Decoding := decodeRounds sIn sIn.length {}

/-- `URLDecode`, `none` if it reads outside the string. -/
def urlDecode (sIn : Bytes) : Option Bytes := (decodeLoop sIn).map Decoding.sOut

/-! ## Pieces -/

/-- What one round of the decoder takes in. -/
inductive Piece where
  | byte (c : UInt8) (h : c ≠ '%'.toUInt8)
  | escape (high low : UInt8)

namespace Piece

def text : Piece → Bytes
  | byte c _ => [c]
  | escape high low => ['%'.toUInt8, high, low]

/-- The byte that the round appends. -/
def char : Piece → UInt8
  | byte c _ => if c = '+'.toUInt8 then ' '.toUInt8 else c
  | escape high low => fromHex high <<< 4 ||| fromHex low

theorem length_text_pos (p : Piece) : 0 < p.text.length := by
  cases p <;> exact Nat.succ_pos _

end Piece

/-- The string of the pieces. -/
def textOf (pieces : List Piece) : Bytes := pieces.flatMap Piece.text

theorem textOf_cons (p : Piece) (pieces : List Piece) :
    textOf (p :: pieces) = p.text ++ textOf pieces := List.flatMap_cons

theorem length_le_length_textOf (pieces : List Piece) : pieces.length ≤ (textOf pieces).length := by
  induction pieces with
  | nil => exact Nat.le_refl 0
  | cons p pieces ih =>
    have hpos := p.length_text_pos
    rw [textOf_cons, List.length_append, List.length_cons]
    omega

/-- Every string is one of pieces, up to an escape that is cut off. -/
theorem exists_pieces (sIn : Bytes) : ∃ pieces tail, sIn = textOf pieces ++ tail ∧
    (tail = [] ∨ tail = ['%'.toUInt8] ∨ ∃ c, tail = ['%'.toUInt8, c]) := by
  induction h : sIn.length using Nat.strongRecOn generalizing sIn with
  | _ n ih =>
    -- a piece in front of a shorter string
    have hcons (p : Piece) (rest : Bytes) (hrest : sIn = p.text ++ rest) :
        ∃ pieces tail, sIn = textOf pieces ++ tail ∧
          (tail = [] ∨ tail = ['%'.toUInt8] ∨ ∃ c, tail = ['%'.toUInt8, c]) := by
      have hlt : rest.length < n := by
        have hpos := p.length_text_pos
        rw [← h, hrest, List.length_append]
        omega
      obtain ⟨pieces, tail, he, htail⟩ := ih rest.length hlt rest rfl
      exact ⟨p :: pieces, tail, by rw [hrest, he, textOf_cons, List.append_assoc], htail⟩
    match sIn with
    | [] => exact ⟨[], [], rfl, .inl rfl⟩
    | c :: rest =>
      by_cases hc : c = '%'.toUInt8
      · subst hc
        match rest with
        | [] => exact ⟨[], _, rfl, .inr (.inl rfl)⟩
        | [x] => exact ⟨[], _, rfl, .inr (.inr ⟨x, rfl⟩)⟩
        | x :: y :: rest => exact hcons (.escape x y) rest rfl
      · exact hcons (.byte c hc) rest rfl

/-! ## The loop over pieces -/

theorem charAt_append (pre : Bytes) (c : UInt8) (post : Bytes) :
    charAt (pre ++ c :: post) pre.length = some c := by
  rw [charAt, if_neg (by simp), List.getElem?_append_right (Nat.le_refl _), Nat.sub_self]
  rfl

theorem charAt_length (sIn : Bytes) : charAt sIn sIn.length = some 0 := if_pos rfl

/-- Past the terminating NUL nothing can be read. -/
theorem charAt_eq_none {sIn : Bytes} {ix : ℕ} (h : sIn.length < ix) : charAt sIn ix = none := by
  rw [charAt, if_neg (by omega), List.getElem?_eq_none (by omega)]

section Round

variable {sIn : Bytes} {ix : ℕ}

theorem decodeChar_byte {c : UInt8} (hread : charAt sIn ix = some c) (hc : c ≠ '%'.toUInt8) :
    decodeChar sIn ix = some (if c = '+'.toUInt8 then ' '.toUInt8 else c, ix) := by
  rw [decodeChar, hread, Option.bind_eq_bind, Option.bind_some, if_neg hc]
  split <;> rfl

theorem decodeChar_escape {high low : UInt8} (hread : charAt sIn ix = some '%'.toUInt8)
    (hhigh : charAt sIn (ix + 1) = some high) (hlow : charAt sIn (ix + 2) = some low) :
    decodeChar sIn ix = some (fromHex high <<< 4 ||| fromHex low, ix + 2) := by
  rw [decodeChar, hread, Option.bind_eq_bind, Option.bind_some, if_pos rfl, hhigh, hlow]
  rfl

/-- An escape that is cut off after its `%`. -/
theorem decodeChar_eq_none (hread : charAt sIn ix = some '%'.toUInt8)
    (hlow : charAt sIn (ix + 2) = none) : decodeChar sIn ix = none := by
  rw [decodeChar, hread, Option.bind_eq_bind, Option.bind_some, if_pos rfl, hlow]
  cases charAt sIn (ix + 1) <;> rfl

end Round

/-- The loop variables after the given pieces. -/
def Decoding.after (d : Decoding) (pieces : List Piece) : Decoding where
  ix := d.ix + (textOf pieces).length
  sOut := d.sOut ++ pieces.map Piece.char
  read := d.read ++ List.range' d.ix (textOf pieces).length

theorem Decoding.after_nil (d : Decoding) : d.after [] = d := by
  simp [Decoding.after, textOf]

theorem Decoding.after_cons (d : Decoding) (p : Piece) (pieces : List Piece) :
    (d.after [p]).after pieces = d.after (p :: pieces) := by
  simp [Decoding.after, textOf, List.range'_append_1, Nat.add_assoc]

/-- A round that finds a piece takes it in. -/
theorem decodeRound_piece {pre : Bytes} {d : Decoding} (hd : d.ix = pre.length) (p : Piece)
    (post : Bytes) : decodeRound (pre ++ (p.text ++ post)) d = some (d.after [p]) := by
  cases p with
  | byte c hc =>
    change Option.map _ (decodeChar (pre ++ c :: post) d.ix) = _
    rw [hd, decodeChar_byte (charAt_append pre c post) hc]
    simp [Decoding.after, textOf, Piece.text, Piece.char, hd]
  | escape high low =>
    have hhigh := charAt_append (pre ++ ['%'.toUInt8]) high (low :: post)
    have hlow := charAt_append (pre ++ ['%'.toUInt8, high]) low post
    rw [List.append_assoc, List.length_append] at hhigh hlow
    change Option.map _ (decodeChar (pre ++ '%'.toUInt8 :: high :: low :: post) d.ix) = _
    rw [hd, decodeChar_escape (charAt_append pre '%'.toUInt8 (high :: low :: post)) hhigh hlow]
    simp [Decoding.after, textOf, Piece.text, Piece.char, hd, Nat.add_assoc]

/-- The loop takes the pieces in, one each round. -/
theorem decodeRounds_pieces (post : Bytes) (pieces : List Piece) (n : ℕ) {pre : Bytes}
    {d : Decoding} (hd : d.ix = pre.length) :
    decodeRounds (pre ++ (textOf pieces ++ post)) (n + pieces.length) d =
      decodeRounds (pre ++ (textOf pieces ++ post)) n (d.after pieces) := by
  induction pieces generalizing pre d with
  | nil => rw [Decoding.after_nil, List.length_nil, Nat.add_zero]
  | cons p pieces ih =>
    have hpos := p.length_text_pos
    have hround := decodeRound_piece hd p (textOf pieces ++ post)
    have hd' : (d.after [p]).ix = (pre ++ p.text).length := by
      simp [Decoding.after, textOf, hd]
    have hrest := ih hd'
    rw [List.append_assoc, ← List.append_assoc p.text, ← textOf_cons] at hrest
    rw [← List.append_assoc p.text, ← textOf_cons] at hround
    rw [← Decoding.after_cons, ← hrest]
    refine loop_round ?_ hround (n + pieces.length)
    rw [decide_eq_true_eq, hd, textOf_cons]
    simp only [List.length_append]
    omega

theorem Decoding.ix_after (pieces : List Piece) :
    (Decoding.after {} pieces).ix = (textOf pieces).length := Nat.zero_add _

/-- The loop over a string of pieces and a tail gets to the tail, with a round left for each byte
of it. -/
theorem decodeLoop_pieces (pieces : List Piece) (tail : Bytes) :
    ∃ n, decodeLoop (textOf pieces ++ tail) =
      decodeRounds (textOf pieces ++ tail) (n + tail.length) (Decoding.after {} pieces) := by
  have hle := length_le_length_textOf pieces
  have hlen : (textOf pieces ++ tail).length =
      (textOf pieces).length - pieces.length + tail.length + pieces.length := by
    rw [List.length_append]
    omega
  refine ⟨(textOf pieces).length - pieces.length, ?_⟩
  rw [decodeLoop, hlen]
  exact @decodeRounds_pieces tail pieces _ [] {} rfl

theorem decodeLoop_textOf (pieces : List Piece) :
    decodeLoop (textOf pieces) = some (Decoding.after {} pieces) := by
  obtain ⟨n, h⟩ := decodeLoop_pieces pieces []
  rw [List.append_nil] at h
  rw [h]
  apply loop_of_not
  simp [Decoding.ix_after]

theorem urlDecode_textOf (pieces : List Piece) :
    urlDecode (textOf pieces) = some (pieces.map Piece.char) := by
  rw [urlDecode, decodeLoop_textOf]
  simp [Decoding.after]

/-! ## Bounds -/

/-- The loop has ended, has read nothing behind the terminating NUL and no byte twice. -/
structure Decoding.InBounds (sIn : Bytes) (d : Decoding) : Prop where
  ended : sIn.length ≤ d.ix
  in_range : ∀ i ∈ d.read, i ≤ sIn.length
  once : d.read.Nodup

theorem charAt_isSome {sIn : Bytes} {ix : ℕ} {c : UInt8} (h : charAt sIn ix = some c) :
    ix ≤ sIn.length := by
  by_contra hlt
  rw [charAt_eq_none (by omega)] at h
  cases h

/-- A round goes on and stops at the terminating NUL at the latest. -/
theorem decodeChar_le {sIn : Bytes} {ix ix' : ℕ} {ch : UInt8}
    (h : decodeChar sIn ix = some (ch, ix')) : ix ≤ ix' ∧ ix' ≤ sIn.length := by
  unfold decodeChar at h
  obtain ⟨c, hread, h⟩ := Option.bind_eq_some_iff.1 h
  have hix := charAt_isSome hread
  split at h
  · obtain ⟨high, -, h⟩ := Option.bind_eq_some_iff.1 h
    obtain ⟨low, hlow, h⟩ := Option.bind_eq_some_iff.1 h
    cases h
    exact ⟨Nat.le_add_right ix 2, charAt_isSome hlow⟩
  · split at h <;> cases h <;> exact ⟨Nat.le_refl ix, hix⟩

theorem decodeRound_le {sIn : Bytes} {d d' : Decoding} (h : decodeRound sIn d = some d') :
    d.ix < d'.ix ∧ d'.ix ≤ sIn.length + 1 ∧
      d'.read = d.read ++ List.range' d.ix (d'.ix - d.ix) := by
  obtain ⟨⟨ch, ix⟩, hchar, rfl⟩ := Option.map_eq_some_iff.1 h
  obtain ⟨hle, hlen⟩ := decodeChar_le hchar
  exact ⟨Nat.lt_succ_of_le hle, Nat.succ_le_succ hlen, rfl⟩

/-- A decoding that reads inside the string only has read it once from the start. -/
theorem decodeLoop_inBounds {sIn : Bytes} {d : Decoding} (h : decodeLoop sIn = some d) :
    d.InBounds sIn := by
  have hread : d.read = List.range' 0 d.ix ∧ d.ix ≤ sIn.length + 1 := by
    refine loop_invariant (I := fun d => d.read = List.range' 0 d.ix ∧ d.ix ≤ sIn.length + 1)
      ?_ ⟨rfl, Nat.zero_le _⟩ h
    rintro d d' - ⟨hread, -⟩ hround
    obtain ⟨hlt, hle, hread'⟩ := decodeRound_le hround
    refine ⟨?_, hle⟩
    have happ : List.range' 0 d.ix ++ List.range' (0 + d.ix) (d'.ix - d.ix) = _ :=
      List.range'_append_1
    rw [Nat.zero_add, Nat.add_sub_cancel' (Nat.le_of_lt hlt)] at happ
    rw [hread', hread, happ]
  have hended := loop_ends (m := fun d => sIn.length - d.ix) (fun d hc => ?_) (fun d d' hc hs => ?_)
    (Nat.sub_le _ _) h
  · exact {
      ended := by simpa using hended
      in_range := by
        intro i hi
        rw [hread.1, List.mem_range'_1] at hi
        omega
      once := by
        rw [hread.1]
        exact List.nodup_range' }
  · rw [decide_eq_true_eq] at hc
    exact Nat.sub_pos_of_lt hc
  · rw [decide_eq_true_eq] at hc
    have hlt := (decodeRound_le hs).1
    show sIn.length - d'.ix < sIn.length - d.ix
    omega

/-- Pieces and a `%` at the end: the second digit would be behind the NUL. -/
theorem decodeLoop_cut_percent (pieces : List Piece) :
    decodeLoop (textOf pieces ++ ['%'.toUInt8]) = none := by
  obtain ⟨n, h⟩ := decodeLoop_pieces pieces ['%'.toUInt8]
  have hix := Decoding.ix_after pieces
  have hchar := decodeChar_eq_none (charAt_append (textOf pieces) '%'.toUInt8 [])
    (charAt_eq_none (by simp))
  rw [h]
  refine loop_fails ?_ ?_ n
  · simp [hix]
  · rw [decodeRound, hix, hchar]
    rfl

/-- Pieces, a `%` and one more byte: the NUL is taken for the second digit. -/
theorem decodeLoop_cut_digit (pieces : List Piece) (c : UInt8) :
    ∃ d, decodeLoop (textOf pieces ++ ['%'.toUInt8, c]) = some d := by
  obtain ⟨n, h⟩ := decodeLoop_pieces pieces ['%'.toUInt8, c]
  have hix := Decoding.ix_after pieces
  have hhigh := charAt_append (textOf pieces ++ ['%'.toUInt8]) c []
  rw [List.append_assoc, List.length_append] at hhigh
  have hlow := charAt_length (textOf pieces ++ ['%'.toUInt8, c])
  rw [List.length_append] at hlow
  have hchar := decodeChar_escape (charAt_append (textOf pieces) '%'.toUInt8 [c]) hhigh hlow
  rw [← hix] at hchar
  have hround : decodeRound (textOf pieces ++ ['%'.toUInt8, c]) (Decoding.after {} pieces) =
      some _ := congrArg (Option.map _) hchar
  rw [h]
  refine ⟨_, (loop_round ?_ hround (n + 1)).trans (loop_of_not ?_ (n + 1))⟩
  · simp [hix]
  · simp [hix]

/-- **Decoding stays in bounds.** On every string the loop ends, reads no index behind the
terminating NUL and no byte twice, exactly if the string is not one of pieces with a `%` after
them. -/
theorem decode_in_bounds_iff (sIn : Bytes) :
    (∃ d, decodeLoop sIn = some d ∧ d.InBounds sIn) ↔
      ¬ ∃ pieces, sIn = textOf pieces ++ ['%'.toUInt8] := by
  constructor
  · rintro ⟨d, h, -⟩ ⟨pieces, rfl⟩
    rw [decodeLoop_cut_percent] at h
    cases h
  · intro hcut
    obtain ⟨pieces, tail, rfl, rfl | rfl | ⟨c, rfl⟩⟩ := exists_pieces sIn
    · rw [List.append_nil]
      exact ⟨_, decodeLoop_textOf pieces, decodeLoop_inBounds (decodeLoop_textOf pieces)⟩
    · exact absurd ⟨pieces, rfl⟩ hcut
    · obtain ⟨d, h⟩ := decodeLoop_cut_digit pieces c
      exact ⟨d, h, decodeLoop_inBounds h⟩

/-- The second digit of the string "%" is read behind the terminating NUL. -/
theorem decode_percent_reads_outside :
    ¬ ∃ d, decodeLoop ['%'.toUInt8] = some d ∧ d.InBounds ['%'.toUInt8] := by
  rintro ⟨d, h, -⟩
  exact absurd h (by rw [show decodeLoop ['%'.toUInt8] = none from rfl]; nofun)

/-! ## Well-formed strings -/

/-- `isxdigit`. -/
def isxdigit (c : UInt8) : Bool :=
  isdigit c || ('A'.toUInt8 ≤ c && c ≤ 'F'.toUInt8) || ('a'.toUInt8 ≤ c && c ≤ 'f'.toUInt8)

/-- A hex digit of either case. -/
abbrev HexDigit := { c : UInt8 // isxdigit c = true }

namespace HexDigit

/-- One of the digits `a` to `f`. -/
def isLower (x : HexDigit) : Bool := 'a'.toUInt8 ≤ x.val

def value (x : HexDigit) : ℕ :=
  if isdigit x.val then x.val.toNat - 48
  else if x.isLower then x.val.toNat - 97 + 10
  else x.val.toNat - 65 + 10

/-- The ranges of the digits. -/
theorem cases (x : HexDigit) :
    isdigit x.val = true ∧ x.isLower = false ∧ 48 ≤ x.val.toNat ∧ x.val.toNat ≤ 57 ∨
      isdigit x.val = false ∧ x.isLower = false ∧ 65 ≤ x.val.toNat ∧ x.val.toNat ≤ 70 ∨
      isdigit x.val = false ∧ x.isLower = true ∧ 97 ≤ x.val.toNat ∧ x.val.toNat ≤ 102 := by
  obtain ⟨c, hc⟩ := x
  simp only [isxdigit, isdigit, isLower, Bool.or_eq_true, Bool.and_eq_true, decide_eq_true_eq,
    Bool.and_eq_false_iff, decide_eq_false_iff_not, UInt8.le_iff_toNat_le] at hc ⊢
  have h0 : '0'.toUInt8.toNat = 48 := rfl
  have h9 : '9'.toUInt8.toNat = 57 := rfl
  have hA : 'A'.toUInt8.toNat = 65 := rfl
  have hF : 'F'.toUInt8.toNat = 70 := rfl
  have ha : 'a'.toUInt8.toNat = 97 := rfl
  have hf : 'f'.toUInt8.toNat = 102 := rfl
  omega

theorem value_lt (x : HexDigit) : x.value < 16 := by
  unfold value
  rcases x.cases with ⟨hd, hl, h1, h2⟩ | ⟨hd, hl, h1, h2⟩ | ⟨hd, hl, h1, h2⟩ <;>
    simp only [hd, hl, if_true, if_false, Bool.false_eq_true] <;> omega

/-- `fromHex` gives a digit its value, and 32 more for a small letter. -/
theorem fromHex_val (x : HexDigit) :
    fromHex x.val = UInt8.ofNat (x.value + if x.isLower then 32 else 0) := by
  have hsize := x.val.toNat_lt
  unfold fromHex value
  rcases x.cases with ⟨hd, hl, h1, h2⟩ | ⟨hd, hl, h1, h2⟩ | ⟨hd, hl, h1, h2⟩ <;>
    simp only [hd, hl, if_true, if_false, Bool.false_eq_true] <;>
    apply UInt8.toNat_inj.1 <;>
    simp only [UInt8.toNat_add, UInt8.toNat_sub, UInt8.toNat_ofNat']
  · change (2 ^ 8 - 48 + x.val.toNat) % 2 ^ 8 = (x.val.toNat - 48 + 0) % 2 ^ 8
    omega
  · change ((2 ^ 8 - 65 + x.val.toNat) % 2 ^ 8 + 10) % 2 ^ 8 = (x.val.toNat - 65 + 10 + 0) % 2 ^ 8
    omega
  · change ((2 ^ 8 - 65 + x.val.toNat) % 2 ^ 8 + 10) % 2 ^ 8 = (x.val.toNat - 97 + 10 + 32) % 2 ^ 8
    omega

/-- The bytes of an escape whose digits have the values `h` and `l`, the letters among them 32
above. -/
theorem escape_eq_iff : ∀ h l : Fin 16, ∀ hl ll : Bool,
    UInt8.ofNat (h + if hl then 32 else 0) <<< 4 ||| UInt8.ofNat (l + if ll then 32 else 0) =
      UInt8.ofNat (16 * h + l) ↔ (ll = true → (h : ℕ) / 2 % 2 = 1) := by
  decide +kernel

end HexDigit

/-- The parts of a well-formed string. -/
inductive Token where
  | literal (c : UInt8) (h : c ≠ '%'.toUInt8 ∧ c ≠ '+'.toUInt8)
  | plus
  | escape (high low : HexDigit)

namespace Token

/-- The piece that the decoder takes it for. -/
def piece : Token → Piece
  | literal c h => .byte c h.1
  | plus => .byte '+'.toUInt8 (by decide)
  | escape high low => .escape high.val low.val

/-- The byte it stands for. -/
def denotes : Token → UInt8
  | literal c _ => c
  | plus => ' '.toUInt8
  | escape high low => UInt8.ofNat (16 * high.value + low.value)

/-- The second digit of an escape is a small letter only where the value of the first one has the
bit that `fromHex` adds for it. -/
def Readable : Token → Prop
  | literal _ _ => True
  | plus => True
  | escape high low => low.isLower = true → high.value / 2 % 2 = 1

theorem char_piece_eq_iff (t : Token) : t.piece.char = t.denotes ↔ t.Readable := by
  cases t with
  | literal c h => exact iff_of_true (if_neg h.2) trivial
  | plus => exact iff_of_true rfl trivial
  | escape high low =>
    have hiff := HexDigit.escape_eq_iff ⟨high.value, high.value_lt⟩ ⟨low.value, low.value_lt⟩
      high.isLower low.isLower
    rw [piece, Piece.char, high.fromHex_val, low.fromHex_val]
    exact hiff

end Token

/-- The string of the tokens. -/
def stringOf (tokens : List Token) : Bytes := textOf (tokens.map Token.piece)

theorem urlDecode_stringOf (tokens : List Token) :
    urlDecode (stringOf tokens) = some (tokens.map fun t => t.piece.char) := by
  rw [stringOf, urlDecode_textOf, List.map_map]
  rfl

/-- **Well-formed strings.** A string of literal bytes, `+` and escapes with digits of either case
is decoded to the bytes it stands for exactly if no escape has a small letter for its second digit,
unless the first one is 2, 3, 6, 7 or one of A, B, E and F. -/
theorem decode_well_formed_iff (tokens : List Token) :
    urlDecode (stringOf tokens) = some (tokens.map Token.denotes) ↔
      ∀ t ∈ tokens, t.Readable := by
  rw [urlDecode_stringOf, Option.some_inj, List.map_inj_left]
  refine forall₂_congr ?_
  intro t _
  exact t.char_piece_eq_iff

/-- "%0a" is decoded to "*", not to a line feed. -/
theorem decode_small_letter :
    ¬ ∀ tokens : List Token, urlDecode (stringOf tokens) = some (tokens.map Token.denotes) := by
  intro h
  have hline := h [.escape ⟨'0'.toUInt8, rfl⟩ ⟨'a'.toUInt8, rfl⟩]
  exact absurd hline (by decide)

/-! ## Round trip -/

/-- A digit or a capital letter. -/
def isUpperXdigit (c : UInt8) : Bool := isdigit c || ('A'.toUInt8 ≤ c && c ≤ 'F'.toUInt8)

/-- The bytes that are not escaped. -/
def isUnreserved (c : UInt8) : Bool :=
  isalnum c || c = '-'.toUInt8 || c = '_'.toUInt8 || c = '.'.toUInt8 || c = '~'.toUInt8

/-- Strings of unreserved bytes, `+`, and escapes with two capital digits. -/
inductive IsEncoded : Bytes → Prop where
  | nil : IsEncoded []
  | unreserved {c : UInt8} {rest : Bytes} :
    isUnreserved c = true → IsEncoded rest → IsEncoded (c :: rest)
  | plus {rest : Bytes} : IsEncoded rest → IsEncoded ('+'.toUInt8 :: rest)
  | escape {high low : UInt8} {rest : Bytes} :
    isUpperXdigit high = true → isUpperXdigit low = true → IsEncoded rest →
      IsEncoded ('%'.toUInt8 :: high :: low :: rest)

theorem toHex_spec : ∀ x : Fin 16, isUpperXdigit (toHex (UInt8.ofNat x)) = true ∧
    fromHex (toHex (UInt8.ofNat x)) = UInt8.ofNat x := by
  decide

theorem shiftRight_four (c : UInt8) : c >>> 4 = UInt8.ofNat (c.toNat / 16) := by
  apply UInt8.toNat_inj.1
  rw [UInt8.toNat_shiftRight, UInt8.toNat_ofNat', Nat.shiftRight_eq_div_pow]
  change c.toNat / 16 = c.toNat / 16 % 2 ^ 8
  have hc := c.toNat_lt
  omega

theorem mod_sixteen (c : UInt8) : c % 16 = UInt8.ofNat (c.toNat % 16) := by
  apply UInt8.toNat_inj.1
  rw [UInt8.toNat_mod, UInt8.toNat_ofNat']
  change c.toNat % 16 = c.toNat % 16 % 2 ^ 8
  omega

/-- A byte is put together from its halves. -/
theorem halves_or (c : UInt8) :
    UInt8.ofNat (c.toNat / 16) <<< 4 ||| UInt8.ofNat (c.toNat % 16) = c := by
  have hc := c.toNat_lt
  have hmul : c.toNat / 16 * 2 ^ 4 + c.toNat % 16 = c.toNat := Nat.div_add_mod' c.toNat 16
  have hor := BitField.shiftLeft_or_eq_add (a := c.toNat / 16) (b := c.toNat % 16) (i := 4)
    (Nat.mod_lt _ (by decide))
  apply UInt8.toNat_inj.1
  rw [UInt8.toNat_or, UInt8.toNat_shiftLeft, UInt8.toNat_ofNat', UInt8.toNat_ofNat']
  change (c.toNat / 16 % 2 ^ 8) <<< 4 % 2 ^ 8 ||| c.toNat % 16 % 2 ^ 8 = c.toNat
  rw [Nat.mod_eq_of_lt (show c.toNat / 16 < 2 ^ 8 by omega),
    Nat.mod_eq_of_lt (show c.toNat % 16 < 2 ^ 8 by omega), Nat.mod_eq_of_lt, hor, hmul]
  rw [Nat.shiftLeft_eq]
  omega

theorem isUnreserved_percent : isUnreserved '%'.toUInt8 = false := by decide

theorem isUnreserved_plus : isUnreserved '+'.toUInt8 = false := by decide

/-- What the encoder writes for a byte. -/
def encodedPiece (c : UInt8) : Piece :=
  if h : isUnreserved c = true then
    .byte c (by rintro rfl; rw [isUnreserved_percent] at h; cases h)
  else if c = ' '.toUInt8 then
    .byte '+'.toUInt8 (by decide)
  else
    .escape (toHex (c >>> 4)) (toHex (c % 16))

theorem urlEncode_eq (str : Bytes) : urlEncode str = textOf (str.map encodedPiece) := by
  have hfold (str strTemp : Bytes) : str.foldl (fun strTemp c =>
      if isalnum c ∨ c = '-'.toUInt8 ∨ c = '_'.toUInt8 ∨ c = '.'.toUInt8 ∨ c = '~'.toUInt8 then
        strTemp ++ [c]
      else if c = ' '.toUInt8 then
        strTemp ++ ['+'.toUInt8]
      else
        strTemp ++ ['%'.toUInt8] ++ [toHex (c >>> 4)] ++ [toHex (c % 16)]) strTemp =
      strTemp ++ textOf (str.map encodedPiece) := by
    induction str generalizing strTemp with
    | nil => simp [textOf]
    | cons c str ih =>
      rw [List.foldl_cons, ih, List.map_cons, textOf_cons, ← List.append_assoc]
      congr 1
      have hiff : (isalnum c ∨ c = '-'.toUInt8 ∨ c = '_'.toUInt8 ∨ c = '.'.toUInt8 ∨
          c = '~'.toUInt8) ↔ isUnreserved c = true := by
        simp [isUnreserved, or_assoc]
      unfold encodedPiece
      simp only [hiff]
      split
      · rfl
      · split
        · rfl
        · simp [Piece.text]
  exact (hfold str []).trans (List.nil_append _)

/-- The decoder reads each byte back. -/
theorem char_encodedPiece (c : UInt8) : (encodedPiece c).char = c := by
  have hc := c.toNat_lt
  unfold encodedPiece
  split
  · next h =>
    refine if_neg ?_
    rintro rfl
    rw [isUnreserved_plus] at h
    cases h
  · split
    · next h =>
      rw [h]
      rfl
    · have hhigh := (toHex_spec ⟨c.toNat / 16, by omega⟩).2
      have hlow := (toHex_spec ⟨c.toNat % 16, by omega⟩).2
      rw [Piece.char, shiftRight_four, mod_sixteen, hhigh, hlow]
      exact halves_or c

theorem isEncoded_encodedPiece (c : UInt8) {rest : Bytes} (h : IsEncoded rest) :
    IsEncoded ((encodedPiece c).text ++ rest) := by
  have hc := c.toNat_lt
  unfold encodedPiece
  split
  · next hunreserved => exact .unreserved hunreserved h
  · split
    · exact .plus h
    · rw [shiftRight_four, mod_sixteen]
      exact .escape (toHex_spec ⟨c.toNat / 16, by omega⟩).1 (toHex_spec ⟨c.toNat % 16, by omega⟩).1 h

theorem isEncoded_urlEncode (str : Bytes) : IsEncoded (urlEncode str) := by
  rw [urlEncode_eq]
  induction str with
  | nil => exact .nil
  | cons c str ih =>
    rw [List.map_cons, textOf_cons]
    exact isEncoded_encodedPiece c ih

/-- What the decoder leaves of an encoded string. -/
theorem decodeLoop_urlEncode (str : Bytes) : decodeLoop (urlEncode str) =
    some { ix := (urlEncode str).length
           sOut := str
           read := List.range' 0 (urlEncode str).length } := by
  have hchars : (str.map encodedPiece).map Piece.char = str := by
    rw [List.map_map, show Piece.char ∘ encodedPiece = id from funext char_encodedPiece]
    exact List.map_id str
  rw [urlEncode_eq, decodeLoop_textOf, Decoding.after, hchars]
  simp

/-- **Round trip.** Every byte string is read back from its encoding, by a loop that ends at the
end of it and has no index outside; the encoding has only unreserved bytes, `+`, and escapes with
capital digits; and no two strings have the same one. -/
theorem urlEncode_round_trip :
    (∀ str : Bytes, urlDecode (urlEncode str) = some str ∧
      (∃ d, decodeLoop (urlEncode str) = some d ∧ d.ix = (urlEncode str).length ∧
        ∀ i ∈ d.read, i < (urlEncode str).length) ∧
      IsEncoded (urlEncode str)) ∧
      Function.Injective urlEncode := by
  constructor
  · intro str
    have hloop := decodeLoop_urlEncode str
    refine ⟨?_, ⟨_, hloop, rfl, ?_⟩, isEncoded_urlEncode str⟩
    · rw [urlDecode, hloop]
      rfl
    · intro i hi
      rw [List.mem_range'_1] at hi
      omega
  · intro str str' he
    have h := congrArg decodeLoop he
    rw [decodeLoop_urlEncode, decodeLoop_urlEncode] at h
    exact congrArg Decoding.sOut (Option.some.inj h)

end ServiceFramework.Base
