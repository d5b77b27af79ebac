import PlaintextEquivalence.Codec.Record
import PlaintextEquivalence.Proofs.Codec.Value

/-!
# Records are read back

The members of a record are read in the order in which they are written.  After so many of them, what
has been read of the record are the values of that many fields, and nothing of the others; each
further member fills the next field, since no other has its name.

Principal results:
* `Fields.exists_readNamed?` — a member is read into the field of its name.
* `Fields.readMembers_commaSeparated` — the members of a record are read as the values of its fields.
* `Codec.readsBack_record`, `Codec.readsBack_ofFields` — a record is read back if its fields are.
-/

set_option autoImplicit false

namespace PlaintextEquivalence

open Reader (bind_of_ok EndsValue)

namespace Fields

variable {σ τ : Type} {later rest : List Char}

/-- The values of the fields are read back. -/
def ReadBack : {σ τ : Type} → Fields σ τ → τ → Prop
  | _, _, .none, _ => True
  | _, _, .field _ codec _ rest, (a, others) => codec.ReadsBack a ∧ rest.ReadBack others

/-- What has been read of a record after its first members. -/
def filled : {σ τ : Type} → Fields σ τ → Nat → τ → σ
  | _, _, .none, _, _ => ()
  | _, _, .field _ _ _ rest, 0, (_, others) => (.none, rest.filled 0 others)
  | _, _, .field _ _ _ rest, k + 1, (a, others) => (some a, rest.filled k others)

theorem filled_zero : ∀ {σ τ : Type} (fields : Fields σ τ) (t : τ), fields.filled 0 t = fields.empty
  | _, _, .none, _ => rfl
  | _, _, .field _ _ _ rest, (_, others) => congrArg (Prod.mk Option.none) (filled_zero rest others)

@[simp] theorem length_members : ∀ {σ τ : Type} (fields : Fields σ τ) (t : τ),
    (fields.members t).length = fields.names.length
  | _, _, .none, _ => rfl
  | _, _, .field _ _ _ rest, (_, others) => congrArg (· + 1) (length_members rest others)

/-- After all members the record is complete. -/
theorem complete_filled : ∀ {σ τ : Type} (fields : Fields σ τ) (t : τ),
    fields.complete (fields.filled fields.names.length t) = .ok t
  | _, _, .none, _ => rfl
  | _, _, .field name codec default? rest, (a, others) => by
    have hothers := complete_filled rest others
    show (rest.complete (rest.filled rest.names.length others) >>= fun others => pure (a, others)) = _
    rw [hothers]
    rfl

/-- **A member is read** into the field of its name, which is the next one that nothing has been read
of. -/
theorem exists_readNamed? : ∀ {σ τ : Type} (fields : Fields σ τ) {t : τ}, fields.names.Nodup →
    fields.ReadBack t → ∀ {k : Nat} {member : List Char}, (fields.members t)[k]? = some member →
    ∃ name written reader, member = Quotation.write name ++ ':' :: written ∧ name ∈ fields.names ∧
      fields.readNamed? name (fields.filled k t) = some reader ∧
      ∀ rest, EndsValue rest → reader (':' :: (written ++ rest)) = .ok (fields.filled (k + 1) t, rest)
  | _, _, .field name codec _ rest, (a, others), _, hback, 0, member, hmember => by
    refine ⟨name, codec.write a, _, (Option.some.inj hmember).symm, List.mem_cons_self, if_pos rfl, ?_⟩
    intro later hlater
    have hcolon : Reader.colon (':' :: (codec.write a ++ later)) =
      .ok ((), codec.write a ++ later) := rfl
    refine (bind_of_ok _ hcolon).trans ((bind_of_ok _ (hback.1.read_write later hlater)).trans ?_)
    rfl
  | _, _, .field name codec default? rest, (a, others), hnames, hback, k + 1, member, hmember => by
    obtain ⟨hname, hnames⟩ := List.nodup_cons.1 hnames
    obtain ⟨wanted, written, reader, hwritten, hwanted, hreader, hread⟩ :=
      exists_readNamed? rest hnames hback.2 hmember
    have hnamed : (field name codec default? rest).readNamed? wanted (some a, rest.filled k others) =
        some (do let slots ← reader; pure (some a, slots)) := by
      rw [readNamed?, if_neg (fun h : name = wanted => hname (h ▸ hwanted)), hreader]
      rfl
    refine ⟨wanted, written, _, hwritten, List.mem_cons_of_mem _ hwanted, hnamed, ?_⟩
    intro later hlater
    exact (bind_of_ok _ (hread later hlater)).trans rfl

variable {fields : Fields σ τ} {t : τ} {isClosed isFirst : Bool} {n k : Nat} {text : List Char}

/-- One member is read, and the others after it. -/
theorem readMembers_step (hnames : fields.names.Nodup) (hback : fields.ReadBack t) {member : List Char}
    (hmember : (fields.members t)[k]? = some member)
    (hnext : ∀ quoted, member = '"' :: quoted →
      Reader.nextMember isFirst text = .ok (true, quoted ++ later)) (hends : EndsValue later) :
    fields.readMembers isClosed (n + 1) isFirst (fields.filled k t) text =
      fields.readMembers isClosed n false (fields.filled (k + 1) t) later := by
  obtain ⟨name, written, reader, rfl, _, hreader, hread⟩ :=
    exists_readNamed? fields hnames hback hmember
  have hquoted : Reader.nextMember isFirst text =
      .ok (true, name.toList.flatMap Quotation.escape ++ '"' :: ':' :: (written ++ later)) := by
    rw [hnext _ rfl]
    simp
  rw [readMembers, bind_of_ok _ hquoted, if_pos rfl, bind_of_ok _ (Quotation.rest_flatMap_escape name),
    hreader]
  exact bind_of_ok _ (hread later hends)

/-- The members that are left are those of the fields that nothing has been read of. -/
theorem readMembers_later (hnames : fields.names.Nodup) (hback : fields.ReadBack t) :
    ∀ {members : List (List Char)} {n k : Nat},
      (fields.members t).drop k = members → members.length < n →
      fields.readMembers isClosed n false (fields.filled k t)
          (members.flatMap (',' :: ·) ++ '\x7d' :: rest) =
        .ok (fields.filled (k + members.length) t, '\x7d' :: rest)
  | [], n + 1, k, _, _ => rfl
  | member :: members, n + 1, k, hdrop, hn => by
    have hmember : (fields.members t)[k]? = some member := by
      rw [← List.head?_drop, hdrop]
      rfl
    have hlater : (fields.members t).drop (k + 1) = members := by
      rw [← List.tail_drop, hdrop]
      rfl
    rw [readMembers_step hnames hback hmember _ (Codec.endsValue_flatMap_comma members (.inr rfl)),
      readMembers_later hnames hback hlater (by rw [List.length_cons] at hn; omega), List.length_cons,
      Nat.add_right_comm, Nat.add_assoc]
    rintro quoted rfl
    rw [List.flatMap_cons, List.append_assoc]
    rfl

/-- **The members of a record** are read as the values of its fields. -/
theorem readMembers_commaSeparated (hnames : fields.names.Nodup) (hback : fields.ReadBack t)
    (hn : fields.names.length < n) :
    fields.readMembers isClosed n true fields.empty
        (Codec.commaSeparated (fields.members t) ++ '\x7d' :: rest) =
      .ok (fields.filled fields.names.length t, '\x7d' :: rest) := by
  obtain ⟨n, rfl⟩ := Nat.exists_eq_succ_of_ne_zero (Nat.ne_zero_of_lt hn)
  rw [← length_members fields t] at hn ⊢
  rw [← filled_zero fields t]
  cases hmembers : fields.members t with
  | nil => rfl
  | cons member members =>
    have hmember : (fields.members t)[0]? = some member := by rw [hmembers]; rfl
    have hlater : (fields.members t).drop 1 = members := by rw [hmembers]; rfl
    rw [hmembers, List.length_cons] at hn
    rw [readMembers_step hnames hback hmember _ (Codec.endsValue_flatMap_comma members (.inr rfl)),
      readMembers_later hnames hback hlater (by omega), List.length_cons, Nat.add_comm]
    rintro quoted rfl
    rw [Codec.commaSeparated_cons, List.append_assoc]
    rfl

end Fields

namespace Codec

variable {α σ τ : Type} {fields : Fields σ τ} {parts : α → τ} {a : α}

/-- **A record is read back** if its fields are, and it can be made of them. -/
theorem readsBack_record {style : RecordStyle} {make : τ → Except DataError α}
    (hnames : fields.names.Nodup) (hback : fields.ReadBack (parts a)) (hmake : make (parts a) = .ok a) :
    (record style fields make parts).ReadsBack a where
  begins := ⟨'\x7b', _, rfl, rfl, by decide⟩
  read_write rest _ := by
    have hwrite : (record style fields make parts).write a ++ rest =
        '\x7b' :: (commaSeparated (fields.members (parts a)) ++ '\x7d' :: rest) := by
      simp [record]
    have hlength : fields.names.length <
        (commaSeparated (fields.members (parts a)) ++ '\x7d' :: rest).length + 1 := by
      have hle := length_le_length_commaSeparated (fields.members (parts a))
      rw [Fields.length_members] at hle
      rw [List.length_append, List.length_cons]
      omega
    have hopen : ∀ text, (record style fields make parts).read ('\x7b' :: text) = (do
        let slots ← fields.readMembers style.isClosed (text.length + 1) true fields.empty
        let a ← Reader.check (fields.complete slots >>= make)
        Reader.close '\x7d'
        pure a : Reader α) text := fun _ => rfl
    rw [hwrite, hopen, bind_of_ok _ (Fields.readMembers_commaSeparated hnames hback hlength),
      Fields.complete_filled]
    show (Reader.check (make (parts a)) >>= _ : Reader α) _ = _
    rw [hmake]
    rfl

theorem readsBack_ofFields {name : String} {make : τ → α} (hnames : fields.names.Nodup)
    (hback : fields.ReadBack (parts a)) (hmake : make (parts a) = a) :
    (ofFields name fields make parts).ReadsBack a :=
  readsBack_record hnames hback (congrArg Except.ok hmake)

end Codec

end PlaintextEquivalence
