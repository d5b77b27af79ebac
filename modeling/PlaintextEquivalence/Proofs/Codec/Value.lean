import PlaintextEquivalence.Codec.Basic
import PlaintextEquivalence.Proofs.Codec.Token
import PlaintextEquivalence.Proofs.Text.Base64

/-!
# Values are read back

A value is read back if its text is read as the value and nothing more, whatever may follow a value in
a list, in a map or at the end of a text.  Simple values are read back, values made of others if the
others are, and lists if their items are.

Principal results:
* `ReadsBack.ofText?_toText` — a value that is read back is the value of its text.
* `readsBack_text`, `readsBack_bytes`, `readsBack_bool`, `readsBack_word64` — simple values are read
  back.
* `ReadsBack.refine`, `readsBack_list` — so are values made of others, and lists.
-/

set_option autoImplicit false

namespace PlaintextEquivalence.Codec

open Reader (bind_of_ok EndsValue)

variable {α β : Type} {codec : Codec α} {a : α} {rest : List Char}

/-- A value is read from its text, before whatever follows values.  The text begins with a character
that is neither skipped nor taken for the end of a list. -/
structure ReadsBack (codec : Codec α) (a : α) : Prop where
  begins : ∃ c text, codec.write a = c :: text ∧ Reader.isBlank c = false ∧ c ≠ ']'
  read_write : ∀ rest, EndsValue rest → codec.read (codec.write a ++ rest) = .ok (a, rest)

/-- **A value that is read back** is the value of its text. -/
theorem ReadsBack.ofText?_toText (h : codec.ReadsBack a) : codec.ofText? (codec.toText a) = .ok a := by
  have hread := h.read_write [] Reader.endsValue_nil
  rw [List.append_nil] at hread
  rw [ofText?, toText, Reader.readAll, String.toList_ofList, hread]
  rfl

/-! ## Simple values -/

theorem ReadsBack.refine {make : α → Except DataError β} {parts : β → α} {b : β}
    (h : codec.ReadsBack (parts b)) (hmake : make (parts b) = .ok b) :
    (codec.refine make parts).ReadsBack b where
  begins := h.begins
  read_write rest hrest := by
    refine (bind_of_ok _ (h.read_write rest hrest)).trans ?_
    rw [hmake]
    rfl

theorem readString_write (expected name : String) :
    readString expected (Quotation.write name ++ rest) = .ok (name, rest) := by
  have hopen : ∀ text, readString expected ('"' :: text) = Quotation.rest text := fun _ => rfl
  rw [Quotation.write, List.cons_append, List.cons_append, hopen, List.append_assoc]
  exact Quotation.rest_flatMap_escape name

theorem readsBack_text (name : String) : text.ReadsBack name where
  begins := ⟨'"', _, rfl, rfl, by decide⟩
  read_write _ _ := readString_write _ name

/-- Digits in base 64 stand for themselves in a quotation. -/
theorem escape_digit : ∀ n < 64, Quotation.escape (Base64.digit n) = [Base64.digit n] := by
  decide +kernel

theorem escape_of_mem_digits {n v : Nat} {c : Char} (h : c ∈ Base64.digits n v) :
    Quotation.escape c = [c] := by
  induction n generalizing v with
  | zero => exact absurd h List.not_mem_nil
  | succ n ih =>
    rw [Base64.digits, List.mem_append, List.mem_singleton] at h
    rcases h with h | rfl
    · exact ih h
    · exact escape_digit _ (Nat.mod_lt v (by decide))

theorem escape_of_mem_encode {c : Char} : ∀ {bytes : Bytes}, c ∈ Base64.encode bytes →
    Quotation.escape c = [c]
  | [], h => absurd h List.not_mem_nil
  | [_], h => escape_of_mem_digits h
  | [_, _], h => escape_of_mem_digits h
  | _ :: _ :: _ :: _, h => (List.mem_append.1 h).elim escape_of_mem_digits escape_of_mem_encode

/-- Byte strings are written as the quotations of their characters in base 64. -/
theorem write_bytes (b : Bytes) :
    bytes.write b = Quotation.write (String.ofList (Base64.encode b)) := by
  have hself : (Base64.encode b).flatMap Quotation.escape = Base64.encode b :=
    calc (Base64.encode b).flatMap Quotation.escape
      _ = (Base64.encode b).flatMap fun c => [c] :=
        List.flatMap_congr fun c hc => escape_of_mem_encode hc
      _ = Base64.encode b := List.flatMap_singleton' _
  rw [Quotation.write, String.toList_ofList, hself]
  rfl

theorem readsBack_bytes (b : Bytes) : bytes.ReadsBack b where
  begins := ⟨'"', _, rfl, rfl, by decide⟩
  read_write rest _ := by
    rw [write_bytes]
    refine (bind_of_ok _ (readString_write _ _)).trans ?_
    rw [String.toList_ofList, Base64.decode?_encode]
    rfl

theorem readsBack_bool (b : Bool) : bool.ReadsBack b where
  begins := by cases b <;> exact ⟨_, _, rfl, rfl, by decide⟩
  read_write rest _ := by cases b <;> rfl

/-- The text of a number begins with a digit. -/
theorem exists_cons_toDigits (n : Nat) : ∃ c digits, Numeral.toDigits n = c :: digits ∧ c.isDigit := by
  obtain ⟨c, digits, h⟩ := List.exists_cons_of_ne_nil (Numeral.toDigits_ne_nil n)
  exact ⟨c, digits, h, Numeral.isDigit_of_mem_toDigits (h ▸ List.mem_cons_self)⟩

theorem isBlank_of_isDigit {c : Char} (h : c.isDigit) : Reader.isBlank c = false := by
  have hne : ∀ d : Char, d.isDigit = false → c ≠ d := by
    rintro d hd rfl
    rw [h] at hd
    cases hd
  simp [Reader.isBlank, hne ' ' rfl, hne '\n' rfl, hne '\t' rfl, hne '\r' rfl]

theorem readNatural_toDigits {bound n : Nat} (expected : String) (hn : n < bound)
    (hbound : bound ≤ Numeral.bound) (hrest : EndsValue rest) :
    readNatural bound expected (Numeral.toDigits n ++ rest) = .ok (n, rest) := by
  obtain ⟨c, digits, hdigits, hc⟩ := exists_cons_toDigits n
  have hread := Number.read_toDigits (Nat.lt_of_lt_of_le hn hbound) hrest
  rw [hdigits, List.cons_append] at hread ⊢
  have hpeek : Reader.peek? (c :: (digits ++ rest)) = .ok (some c, c :: (digits ++ rest)) := rfl
  rw [readNatural, bind_of_ok _ (Reader.blanks_cons (isBlank_of_isDigit hc)), bind_of_ok _ hpeek]
  simp only [hc, or_true, if_true]
  rw [bind_of_ok _ hread]
  simp only [hn, if_true]
  rfl

theorem readsBack_word64 (expected : String) (n : UInt64) : (word64 expected).ReadsBack n where
  begins := by
    obtain ⟨c, digits, hdigits, hc⟩ := exists_cons_toDigits n.toNat
    exact ⟨c, digits, hdigits, isBlank_of_isDigit hc, fun h => absurd (h ▸ hc) (by decide)⟩
  read_write rest hrest := by
    refine (bind_of_ok _ (readNatural_toDigits expected n.toNat_lt (Nat.le_refl _) hrest)).trans ?_
    rw [UInt64.ofNat_toNat]
    rfl

/-! ## Lists -/

/-- The items after the first of a list stand each after a comma. -/
theorem commaSeparated_cons : ∀ (item : List Char) (others : List (List Char)),
    commaSeparated (item :: others) = item ++ others.flatMap (',' :: ·)
  | item, [] => (List.append_nil item).symm
  | item, other :: others => congrArg (item ++ ',' :: ·) (commaSeparated_cons other others)

theorem length_le_length_flatMap_comma (items : List (List Char)) :
    items.length ≤ (items.flatMap (',' :: ·)).length := by
  induction items with
  | nil => exact Nat.zero_le _
  | cons item items ih =>
    rw [List.flatMap_cons, List.length_append, List.length_cons, List.length_cons]
    omega

theorem length_le_length_commaSeparated (items : List (List Char)) :
    items.length ≤ (commaSeparated items).length + 1 := by
  cases items with
  | nil => exact Nat.zero_le _
  | cons item items =>
    have hle := length_le_length_flatMap_comma items
    rw [commaSeparated_cons, List.length_append, List.length_cons]
    omega

/-- What follows an item is the end of a value: a comma or the closing bracket. -/
theorem endsValue_flatMap_comma (items : List (List Char)) {bracket : Char}
    (h : bracket = ']' ∨ bracket = '\x7d') :
    EndsValue (items.flatMap (',' :: ·) ++ bracket :: rest) := by
  cases items with
  | nil => exact fun c hc => Option.some.inj hc ▸ .inr h
  | cons item items => exact fun c hc => .inl (Option.some.inj hc).symm

section Items

variable {c : Char} {text : List Char}

theorem nextItem_first (hblank : Reader.isBlank c = false) (hc : c ≠ ']') :
    Reader.nextItem true (c :: text) = .ok (true, c :: text) := by
  have hpeek : Reader.peek? (c :: text) = .ok (some c, c :: text) := rfl
  rw [Reader.nextItem, bind_of_ok _ (Reader.blanks_cons hblank), bind_of_ok _ hpeek]
  -- the branch of the closing bracket is ruled out by `hc`
  simp only [if_true]
  rfl

theorem nextItem_later (hblank : Reader.isBlank c = false) (hc : c ≠ ']') :
    Reader.nextItem false (',' :: c :: text) = .ok (true, c :: text) := by
  have hcomma : Reader.peek? (',' :: c :: text) = .ok (some ',', ',' :: c :: text) := rfl
  have hnext : Reader.next (',' :: c :: text) = .ok (',', c :: text) := rfl
  have hpeek : Reader.peek? (c :: text) = .ok (some c, c :: text) := rfl
  rw [Reader.nextItem, bind_of_ok _ (Reader.blanks_cons rfl), bind_of_ok _ hcomma]
  refine (bind_of_ok _ hnext).trans ?_
  rw [bind_of_ok _ (Reader.blanks_cons hblank), bind_of_ok _ hpeek]
  simp only
  rfl

variable {n : Nat} {isFirst : Bool}

/-- One item is read, and the others after it. -/
theorem readItems_cons {items : List α} {later : List Char} (h : codec.ReadsBack a)
    (hnext : Reader.nextItem isFirst text = .ok (true, codec.write a ++ later))
    (hends : EndsValue later) (hlater : readItems codec.read n false later = .ok (items, rest)) :
    readItems codec.read (n + 1) isFirst text = .ok (a :: items, rest) := by
  rw [readItems, bind_of_ok _ hnext, if_pos rfl, bind_of_ok _ (h.read_write _ hends),
    bind_of_ok _ hlater]
  rfl

/-- Of the given number of steps each item takes one, and the closing bracket takes one. -/
theorem readItems_later : ∀ {items : List α} {n : Nat}, (∀ a ∈ items, codec.ReadsBack a) →
    items.length < n →
      readItems codec.read n false ((items.map codec.write).flatMap (',' :: ·) ++ ']' :: rest) =
        .ok (items, ']' :: rest)
  | [], n + 1, _, _ => rfl
  | a :: items, n + 1, hback, hn => by
    obtain ⟨ha, hback⟩ := List.forall_mem_cons.1 hback
    obtain ⟨c, text, hwrite, hblank, hc⟩ := ha.begins
    refine readItems_cons ha ?_ (endsValue_flatMap_comma _ (.inl rfl))
      (readItems_later hback (Nat.lt_of_succ_lt_succ hn))
    rw [List.map_cons, List.flatMap_cons, hwrite]
    simpa using nextItem_later hblank hc

/-- The items of a list are read from their texts with commas between them. -/
theorem readItems_commaSeparated : ∀ {items : List α} {n : Nat}, (∀ a ∈ items, codec.ReadsBack a) →
    items.length < n →
      readItems codec.read n true (commaSeparated (items.map codec.write) ++ ']' :: rest) =
        .ok (items, ']' :: rest)
  | [], n + 1, _, _ => rfl
  | a :: items, n + 1, hback, hn => by
    obtain ⟨ha, hback⟩ := List.forall_mem_cons.1 hback
    obtain ⟨c, text, hwrite, hblank, hc⟩ := ha.begins
    refine readItems_cons ha ?_ (endsValue_flatMap_comma _ (.inl rfl))
      (readItems_later hback (Nat.lt_of_succ_lt_succ hn))
    rw [List.map_cons, commaSeparated_cons, List.append_assoc, hwrite]
    exact nextItem_first hblank hc

end Items

/-- **A list is read back** if its items are. -/
theorem readsBack_list {items : List α} (hback : ∀ a ∈ items, codec.ReadsBack a) :
    (list codec).ReadsBack items where
  begins := ⟨'[', _, rfl, rfl, by decide⟩
  read_write rest _ := by
    have hwrite : (list codec).write items ++ rest =
        '[' :: (commaSeparated (items.map codec.write) ++ ']' :: rest) := by
      simp [list, writeItems]
    have hlength : items.length <
        (commaSeparated (items.map codec.write) ++ ']' :: rest).length + 1 := by
      have hle := length_le_length_commaSeparated (items.map codec.write)
      rw [List.length_map] at hle
      rw [List.length_append, List.length_cons]
      omega
    have hopen : ∀ text, (list codec).read ('[' :: text) = (do
        let items ← readItems codec.read (text.length + 1) true
        Reader.close ']'
        pure items : Reader (List α)) text := fun _ => rfl
    rw [hwrite, hopen, bind_of_ok _ (readItems_commaSeparated hback hlength)]
    rfl

end PlaintextEquivalence.Codec
