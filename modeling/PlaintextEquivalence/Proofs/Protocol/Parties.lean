import PlaintextEquivalence.Proofs.Blinding.Retention
import PlaintextEquivalence.Proofs.Protocol.Interplay

/-!
# What a question changes

A question put to honest trustees and guardians changes the trustee that it is put to, as the request in it
does, and no other.  It changes neither how the trustees are set up nor who the guardians are, and only the
question for a number changes which number comes next.

Principal results:
* `getElem?_trustees_world` — the trustees after a question.
* `settings_world`, `guardians_world`, `nextRun_world` — what stays the same.
-/

set_option autoImplicit false

namespace PlaintextEquivalence

variable {G : PrimeGroup}

/-- The request that a question puts to trustee `j`. -/
def Question.requestTo? (j : Nat) (q : Question G) : Option (Request G) :=
  q.request?.bind fun call => if call.1 = j then some call.2 else none

theorem Question.requestTo?_eq_some {j : Nat} {q : Question G} {request : Request G} :
    q.requestTo? j = some request ↔ q.request? = some (j, request) := by
  unfold requestTo?
  cases q.request? with
  | none => simp
  | some call =>
    obtain ⟨k, asked⟩ := call
    by_cases hk : k = j <;> simp [hk]

theorem Event.seat?_eq_some {j : Nat} {e : Event G} :
    e.seat? = some j ↔ ∃ request, e.1.requestTo? j = some request := by
  constructor
  · intro h
    obtain ⟨⟨k, request⟩, hcall, rfl⟩ := Option.map_eq_some_iff.1 h
    exact ⟨request, Question.requestTo?_eq_some.2 hcall⟩
  · rintro ⟨request, h⟩
    rw [seat?, Question.requestTo?_eq_some.1 h]
    rfl

theorem Question.requestTo?_eq_none {j : Nat} {e : Event G} (h : e.seat? ≠ some j) :
    e.1.requestTo? j = none := by
  rw [Option.eq_none_iff_forall_ne_some]
  exact fun request hrequest => h (Event.seat?_eq_some.2 ⟨request, hrequest⟩)

namespace BlindingTrustee

/-- Trustee `j` after a question, which may be put to another. -/
def hear (trustee : BlindingTrustee G) (j now : Nat) (q : Question G) : BlindingTrustee G :=
  match q.requestTo? j with
  | none => trustee
  | some request => trustee.heed now request

variable {trustee : BlindingTrustee G} {j : Nat} {q : Question G}

theorem hear_of_none (h : q.requestTo? j = none) (now : Nat) : trustee.hear j now q = trustee := by
  rw [hear, h]

theorem hear_of_some {request : Request G} (h : q.requestTo? j = some request) (now : Nat) :
    trustee.hear j now q = trustee.heed now request := by
  rw [hear, h]

theorem settings_hear (trustee : BlindingTrustee G) (j now : Nat) (q : Question G) :
    (trustee.hear j now q).settings = trustee.settings := by
  unfold hear
  split
  · rfl
  · exact settings_heed trustee now _

theorem mode_hear (trustee : BlindingTrustee G) (j now : Nat) (q : Question G) :
    (trustee.hear j now q).mode = trustee.mode :=
  congrArg Prod.fst (trustee.settings_hear j now q)

end BlindingTrustee

namespace Assembly

variable {election : Election G} {clock : Nat → Nat}

theorem getElem?_trustees_call {β : Type} (a : Assembly G) (k : Nat) (absent : β)
    (act : BlindingTrustee G → β × BlindingTrustee G) (j : Nat) :
    (a.call k absent act).2.trustees[j]? =
      a.trustees[j]?.map fun trustee => if k = j then (act trustee).2 else trustee := by
  unfold call
  cases hk : a.trustees[k]? with
  | none =>
    by_cases hj : k = j
    · subst hj
      rw [hk]
      rfl
    · simp only [if_neg hj, Option.map_id']
  | some trustee =>
    simp only [List.getElem?_set]
    by_cases hj : k = j
    · subst hj
      rw [if_pos rfl, if_pos (List.getElem?_eq_some_iff.1 hk).1, hk, Option.map_some, if_pos rfl]
    · simp [hj]

/-- **A question changes only the trustee that it is put to**, as the request does. -/
theorem getElem?_trustees_world (election : Election G) (clock : Nat → Nat) (q : Question G)
    (a : Assembly G) (j : Nat) :
    (world election clock q a).2.trustees[j]? =
      a.trustees[j]?.map fun trustee => trustee.hear j (clock j) q := by
  have hcall : ∀ {β : Type} (k : Nat) (absent : β) (act : BlindingTrustee G → β × BlindingTrustee G)
      (request : Request G), (∀ trustee, (act trustee).2 = trustee.heed (clock k) request) →
      q.request? = some (k, request) →
      (a.call k absent act).2.trustees[j]? =
        a.trustees[j]?.map fun trustee => trustee.hear j (clock j) q := by
    intro β k absent act request hact hq
    rw [getElem?_trustees_call]
    congr 1
    funext trustee
    by_cases hj : k = j
    · subst hj
      rw [if_pos rfl, BlindingTrustee.hear_of_some (Question.requestTo?_eq_some.2 hq), hact]
    · have hnone : q.requestTo? j = none := by simp [Question.requestTo?, hq, hj]
      rw [if_neg hj, BlindingTrustee.hear_of_none hnone]
  cases q with
  | blind k request => exact hcall k _ _ (.blind request) (fun _ => rfl) rfl
  | challenge k request => exact hcall k _ _ (.challenge request) (fun _ => rfl) rfl
  | release k run => exact hcall k _ _ (.release run) (fun _ => rfl) rfl
  | number | decrypt _ | pass _ | reached _ | ended _ =>
    exact Option.map_id'.symm

theorem call_eq {β : Type} (a : Assembly G) (k : Nat) (absent : β)
    (act : BlindingTrustee G → β × BlindingTrustee G) :
    (a.call k absent act).2 = { a with trustees := (a.call k absent act).2.trustees } := by
  unfold call
  split <;> rfl

theorem guardians_decrypt (board : GuardianBoard G) (election : Election G)
    (ciphertexts : List (Ciphertext G)) :
    (board.decrypt election ciphertexts).2.guardians = board.guardians := by
  unfold GuardianBoard.decrypt
  simp only
  split
  · rfl
  · split
    · rfl
    · split <;> rfl

theorem guardians_world (election : Election G) (clock : Nat → Nat) (q : Question G) (a : Assembly G) :
    (world election clock q a).2.board.guardians = a.board.guardians := by
  cases q with
  | blind k request => rw [world, call_eq]
  | challenge k request => rw [world, call_eq]
  | release k run => rw [world, call_eq]
  | decrypt ciphertexts => exact guardians_decrypt a.board election ciphertexts
  | number | pass _ | reached _ | ended _ => rfl

theorem nextRun_world (election : Election G) (clock : Nat → Nat) {q : Question G} (a : Assembly G)
    (hq : q ≠ .number) : (world election clock q a).2.nextRun = a.nextRun := by
  cases q with
  | number => exact absurd rfl hq
  | blind k request => rw [world, call_eq]
  | challenge k request => rw [world, call_eq]
  | release k run => rw [world, call_eq]
  | decrypt _ | pass _ | reached _ | ended _ => rfl

/-- No question changes how the trustees are set up. -/
theorem settings_world (election : Election G) (clock : Nat → Nat) (q : Question G) (a : Assembly G) :
    (world election clock q a).2.trustees.map (·.settings) = a.trustees.map (·.settings) := by
  refine List.ext_getElem? fun j => ?_
  rw [List.getElem?_map, List.getElem?_map, getElem?_trustees_world, Option.map_map]
  congr 1
  exact funext fun trustee => trustee.settings_hear j (clock j) q

theorem blind_world (election : Election G) (clock : Nat → Nat) {a : Assembly G} {j : Nat}
    {trustee : BlindingTrustee G} (hj : a.trustees[j]? = some trustee) (request : BlindRequest G) :
    (world election clock (.blind j request) a).1 = promptly (trustee.blind (clock j) request).1 := by
  change (a.call j _ _).1 = _
  rw [call, hj]
  rfl

theorem challenge_world (election : Election G) (clock : Nat → Nat) {a : Assembly G} {j : Nat}
    {trustee : BlindingTrustee G} (hj : a.trustees[j]? = some trustee) (request : ChallengeRequest G) :
    (world election clock (.challenge j request) a).1 = promptly (trustee.challenge request).1 := by
  change (a.call j _ _).1 = _
  rw [call, hj]
  rfl

end Assembly

end PlaintextEquivalence
