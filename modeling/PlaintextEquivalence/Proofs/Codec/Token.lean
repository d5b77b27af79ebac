import Mathlib.Data.List.Basic
import PlaintextEquivalence.Codec.Number
import PlaintextEquivalence.Codec.Quotation

/-!
# Tokens are read back

A reader that is done with the front of a text goes on with the rest of it, so that reading what was
written follows the way it was written: inside a quotation character by character, in a number digit
by digit.  A quotation ends with its closing mark; a number ends where a mark follows that stands after
values.

Principal results:
* `Reader.bind_of_ok` — how a reader goes on after its first step.
* `Quotation.rest_flatMap_escape` — a string is read from its escaped characters.
* `Number.read_toDigits` — a number that fits into 64 bits is read from its digits.
-/

set_option autoImplicit false

namespace PlaintextEquivalence

namespace Reader

variable {α β : Type} {text rest : List Char} {a : α}

/-- **A reader goes on** with what its first step leaves. -/
theorem bind_of_ok {x : Reader α} (f : α → Reader β) (h : x text = .ok (a, rest)) :
    (x >>= f) text = f a rest := by
  change (x text >>= fun p => f p.1 p.2) = f a rest
  rw [h]
  rfl

theorem blanks_cons {c : Char} (h : isBlank c = false) : blanks (c :: text) = .ok ((), c :: text) := by
  rw [blanks, List.dropWhile_cons_of_neg (by simp [h])]

/-- A value may stand before the text, which is empty or begins with a mark that follows values. -/
def EndsValue (rest : List Char) : Prop := ∀ c ∈ rest.head?, c = ',' ∨ c = ']' ∨ c = '\x7d'

theorem endsValue_nil : EndsValue [] := nofun

end Reader

namespace Quotation

open Reader (bind_of_ok)

variable {text rest chars : List Char} {n : Nat}

/-! ## Hexadecimal digits -/

theorem hexValue?_hexDigit : ∀ n < 16, Bytes.hexValue? (Bytes.hexDigit n) = some n := by decide

/-- A character below 256 is read from its two digits after two zeros. -/
theorem character_hexPair {c : Char} (h : c.toNat < 256) :
    character (['0', '0'] ++ hexPair c.toNat ++ text) = .ok (c, text) := by
  have hhigh := hexValue?_hexDigit (c.toNat / 16) (by omega)
  have hlow := hexValue?_hexDigit (c.toNat % 16) (by omega)
  have hzero : Bytes.hexValue? '0' = some 0 := rfl
  have hunit : unit (['0', '0'] ++ hexPair c.toNat ++ text) = .ok (c.toNat, text) := by
    simp only [hexPair, List.cons_append, List.nil_append, unit, hzero, hhigh, hlow]
    rw [show ((0 * 16 + 0) * 16 + c.toNat / 16) * 16 + c.toNat % 16 = c.toNat by omega]
  rw [character, bind_of_ok _ hunit, if_neg (by omega), if_neg (by omega), Char.ofNat_toNat]
  rfl

/-! ## One character -/

theorem body_plain {c : Char} (hquote : c ≠ '"') (hbackslash : c ≠ '\\') (hcontrol : ¬c.toNat < 0x20)
    (h : body n text = .ok (chars, rest)) : body (n + 1) (c :: text) = .ok (c :: chars, rest) := by
  have hnext : Reader.next (c :: text) = .ok (c, text) := rfl
  rw [body, bind_of_ok _ hnext, if_neg hquote, if_neg hbackslash, if_neg hcontrol, bind_of_ok _ h]
  rfl

theorem body_simple {c escaped : Char} (hescaped : simple? escaped = some c)
    (h : body n text = .ok (chars, rest)) :
    body (n + 1) ('\\' :: escaped :: text) = .ok (c :: chars, rest) := by
  have hfirst : Reader.next ('\\' :: escaped :: text) = .ok ('\\', escaped :: text) := rfl
  have hsecond : Reader.next (escaped :: text) = .ok (escaped, text) := rfl
  rw [body, bind_of_ok _ hfirst, if_neg (by decide), if_pos rfl, bind_of_ok _ hsecond, hescaped]
  have hpure : (pure c : Reader Char) text = .ok (c, text) := rfl
  exact (bind_of_ok _ hpure).trans (bind_of_ok _ h)

theorem body_numbered (digits : List Char) {c : Char}
    (hcharacter : character (digits ++ text) = .ok (c, text)) (h : body n text = .ok (chars, rest)) :
    body (n + 1) ('\\' :: 'u' :: (digits ++ text)) = .ok (c :: chars, rest) := by
  have hfirst : Reader.next ('\\' :: 'u' :: (digits ++ text)) =
    .ok ('\\', 'u' :: (digits ++ text)) := rfl
  have hsecond : Reader.next ('u' :: (digits ++ text)) = .ok ('u', digits ++ text) := rfl
  rw [body, bind_of_ok _ hfirst, if_neg (by decide), if_pos rfl, bind_of_ok _ hsecond]
  exact (bind_of_ok _ hcharacter).trans (bind_of_ok _ h)

/-- A character is read from its escaped form. -/
theorem body_escape (c : Char) (h : body n text = .ok (chars, rest)) :
    body (n + 1) (escape c ++ text) = .ok (c :: chars, rest) := by
  unfold escape
  split
  case isTrue hc => exact body_simple (by simp [simple?, hc]) h
  split
  case isTrue hc => exact body_simple (by simp [simple?, hc]) h
  split
  case isTrue hc => exact hc ▸ body_simple rfl h
  split
  case isTrue hc => exact hc ▸ body_simple rfl h
  split
  case isTrue hc => exact hc ▸ body_simple rfl h
  split
  case isTrue hc => exact hc ▸ body_simple rfl h
  split
  case isTrue hc => exact hc ▸ body_simple rfl h
  split
  case isTrue hcontrol =>
    exact body_numbered (['0', '0'] ++ hexPair c.toNat) (character_hexPair (by omega)) h
  case isFalse hquote hbackslash _ _ _ _ _ hcontrol =>
    exact body_plain hquote hbackslash hcontrol h

/-! ## Strings -/

theorem escape_ne_nil (c : Char) : escape c ≠ [] := by
  unfold escape
  repeat' split
  all_goals exact List.cons_ne_nil _ _

theorem length_le_length_flatMap_escape (chars : List Char) :
    chars.length ≤ (chars.flatMap escape).length := by
  induction chars with
  | nil => exact Nat.zero_le _
  | cons c chars ih =>
    have hpos := List.length_pos_iff.2 (escape_ne_nil c)
    rw [List.flatMap_cons, List.length_append, List.length_cons]
    omega

theorem body_flatMap_escape : ∀ (chars : List Char) {n : Nat}, chars.length < n →
    body n (chars.flatMap escape ++ '"' :: text) = .ok (chars, text)
  | [], n + 1, _ => rfl
  | c :: chars, n + 1, h => by
    rw [List.flatMap_cons, List.append_assoc]
    exact body_escape c (body_flatMap_escape chars (Nat.lt_of_succ_lt_succ h))

/-- **A string is read** from its escaped characters up to the closing quotation mark. -/
theorem rest_flatMap_escape (name : String) :
    Quotation.rest (name.toList.flatMap escape ++ '"' :: text) = .ok (name, text) := by
  have hlength : name.toList.length < (name.toList.flatMap escape ++ '"' :: text).length := by
    have hle := length_le_length_flatMap_escape name.toList
    rw [List.length_append, List.length_cons]
    omega
  have hremaining : Reader.remaining (name.toList.flatMap escape ++ '"' :: text) =
    .ok (_, name.toList.flatMap escape ++ '"' :: text) := rfl
  rw [Quotation.rest, bind_of_ok _ hremaining, bind_of_ok _ (body_flatMap_escape _ hlength)]
  show Except.ok (String.ofList name.toList, text) = .ok (name, text)
  rw [String.ofList_toList]

end Quotation

namespace Numeral

open Reader (bind_of_ok EndsValue)

variable {rest : List Char}

theorem toDigits_ne_nil (n : Nat) : toDigits n ≠ [] := Nat.toDigits_ne_nil

theorem isDigit_of_mem_toDigits {n : Nat} {c : Char} (h : c ∈ toDigits n) : c.isDigit :=
  Nat.isDigit_of_mem_toDigits (by decide) (by decide) h

theorem ofDigits_toDigits (n : Nat) : ofDigits (toDigits n) = n := by
  have h := Nat.ofDigitChars_ten_toDigits (n := n)
  rw [Nat.ofDigitChars_eq_foldl] at h
  exact h

/-- Only the number zero begins with a zero. -/
theorem eq_zero_of_head?_toDigits {n : Nat} (h : (toDigits n).head? = some '0') : n = 0 := by
  induction n using Nat.strongRecOn with
  | _ n ih =>
    rw [toDigits, Nat.toDigits_eq_if (by decide)] at h
    split at h
    case isTrue hsmall => simpa using h
    case isFalse hlarge =>
      rw [List.head?_append_of_ne_nil _ Nat.toDigits_ne_nil] at h
      have := ih (n / 10) (by omega) h
      omega

/-- Digits are read up to the end of a value. -/
theorem someDigits_append {digits : List Char} (hdigits : ∀ c ∈ digits, c.isDigit) (hne : digits ≠ [])
    (hrest : EndsValue rest) : someDigits (digits ++ rest) = .ok (digits, rest) := by
  have hstop : ∀ c ∈ rest.head?, c.isDigit = false := fun c hc => by
    obtain rfl | rfl | rfl := hrest c hc <;> rfl
  have htake : Reader.takeWhile Char.isDigit (digits ++ rest) = .ok (digits, rest) := by
    rw [Reader.takeWhile, List.takeWhile_append_of_pos hdigits, List.dropWhile_append_of_pos hdigits]
    cases rest with
    | nil => simp
    | cons c rest => simp [hstop c rfl]
  rw [someDigits, bind_of_ok _ htake, if_neg (by simpa using hne)]
  rfl

theorem fractionPart_of_endsValue (hrest : EndsValue rest) : fractionPart rest = .ok (none, rest) := by
  cases rest with
  | nil => rfl
  | cons c rest => obtain rfl | rfl | rfl := hrest c rfl <;> rfl

theorem exponentPart_of_endsValue (hrest : EndsValue rest) : exponentPart rest = .ok (none, rest) := by
  cases rest with
  | nil => rfl
  | cons c rest => obtain rfl | rfl | rfl := hrest c rfl <;> rfl

theorem read_toDigits (n : Nat) (hrest : EndsValue rest) :
    Numeral.read (toDigits n ++ rest) = .ok (⟨false, toDigits n, none, none⟩, rest) := by
  have hwhole : wholeDigits (toDigits n ++ rest) = .ok (toDigits n, rest) := by
    rw [wholeDigits, bind_of_ok _
      (someDigits_append (fun c => isDigit_of_mem_toDigits) (toDigits_ne_nil n) hrest), if_neg]
    · rfl
    · rintro ⟨hhead, hlength⟩
      rw [eq_zero_of_head?_toDigits hhead] at hlength
      exact hlength rfl
  have hpeek : Reader.peek? (toDigits n ++ rest) = .ok ((toDigits n).head?, toDigits n ++ rest) := by
    rw [Reader.peek?, List.head?_append_of_ne_nil _ (toDigits_ne_nil n)]
  have hsign : (toDigits n).head? ≠ some '-' := fun h =>
    absurd (isDigit_of_mem_toDigits (List.mem_of_head? h)) (by decide)
  rw [Numeral.read, bind_of_ok _ hpeek, if_neg hsign]
  refine (bind_of_ok _ hwhole).trans ?_
  rw [bind_of_ok _ (fractionPart_of_endsValue hrest), bind_of_ok _ (exponentPart_of_endsValue hrest),
    decide_eq_false hsign]
  rfl

theorem value?_toDigits {n : Nat} (h : n < bound) :
    value? ⟨false, toDigits n, none, none⟩ = some (.natural n) := by
  rw [value?]
  simp only [ofDigits_toDigits]
  exact if_pos ⟨rfl, by decide, h⟩

end Numeral

/-- **A number is read** from its digits, if it fits into 64 bits. -/
theorem Number.read_toDigits {rest : List Char} {n : Nat} (h : n < Numeral.bound)
    (hrest : Reader.EndsValue rest) :
    Number.read (Numeral.toDigits n ++ rest) = .ok (.natural n, rest) := by
  rw [Number.read, Reader.bind_of_ok _ (Numeral.read_toDigits n hrest), Numeral.value?_toDigits h]
  rfl

end PlaintextEquivalence
