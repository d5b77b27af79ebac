import PlaintextEquivalence.Proofs.Ballot.Quotient
import PlaintextEquivalence.Proofs.Elgamal.Ciphertext

/-!
# Votes in quotients

If two ballots encrypt votes, a ratio of their quotient decrypts to the identity iff the two votes for
its selection are the same.

Principal results:
* `decrypt_ratios_eq_zero` — all ratios decrypt to the identity iff the votes are the same.
-/

set_option autoImplicit false

namespace PlaintextEquivalence

variable {G : PrimeGroup}

/-- The selections of a ballot encrypt votes under a key, each with some randomness. -/
def Ballot.Encrypts (key : PublicKey G) (votes : SelectionPath → UInt64) (ballot : Ballot G) : Prop :=
  ∀ contest ∈ ballot.contests, ∀ selection ∈ contest.selections, ∃ r : G.Scalar,
    selection.ciphertext = key.encryptWith
      (G.mulGenerator (G.ofWord (votes ⟨contest.contestId, selection.selectionId⟩))) r

namespace Quotient

variable [PrimeGroup.Lawful G] {key : PublicKey G} {secret : G.Scalar} {first second : Ballot G}
  {votes votes' : SelectionPath → UInt64}

/-- A ratio decrypts to the identity iff the votes for its selection are the same. -/
theorem decrypt_ratio_eq_zero (hkey : key.element = G.mulGenerator secret)
    (hfirst : first.Encrypts key votes) (hsecond : second.Encrypts key votes')
    {g : String × List (SelectionQuotient G)} {contest : Contest G}
    (hcontest : contest ∈ first.contests) (hg : IsGroupOf second.contests g contest)
    {r : SelectionQuotient G} (hr : r ∈ g.2) :
    r.ratio.decrypt secret = 0 ↔ votes r.path = votes' r.path := by
  obtain ⟨other, hother, hname, _, hratios⟩ := hg.ratios
  obtain ⟨s, hs, hratio⟩ := Paired.exists_right hratios hr
  obtain ⟨o, ho, hsame, heq⟩ := hratio.ratio
  obtain ⟨u, hu⟩ := hfirst contest hcontest s hs
  obtain ⟨v, hv⟩ := hsecond other hother o ho
  rw [hname, hsame] at hv
  rw [heq, hu, hv, hratio.path]
  exact Ciphertext.decrypt_sub_eq_zero hkey _ _ u v

/-- **All ratios decrypt to the identity** iff the votes are the same in every selection. -/
theorem decrypt_ratios_eq_zero (hkey : key.element = G.mulGenerator secret)
    (hfirst : first.Encrypts key votes) (hsecond : second.Encrypts key votes') {q : Quotient G}
    (h : ofBallots first second = .ok q) :
    (∀ r ∈ q.selections, r.ratio.decrypt secret = 0) ↔
      ∀ path ∈ references first.contests, votes path = votes' path := by
  obtain ⟨groups, rfl, _, _, _, hgroups⟩ := ofBallots_eq_ok h
  have hratio : ∀ r ∈ groups.flatMap (·.2),
      (r.ratio.decrypt secret = 0 ↔ votes r.path = votes' r.path) := by
    intro r hr
    obtain ⟨g, hg, hrg⟩ := List.mem_flatMap.1 hr
    obtain ⟨contest, hcontest, hgroup⟩ := Paired.exists_right hgroups hg
    exact decrypt_ratio_eq_zero hkey hfirst hsecond hcontest hgroup hrg
  rw [← paths_of_groups hgroups]
  simp only [List.forall_mem_map]
  exact forall₂_congr hratio

end Quotient

end PlaintextEquivalence
