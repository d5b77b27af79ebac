import PlaintextEquivalence.Proofs.Election.Board
import PlaintextEquivalence.Proofs.Sharing.Reconstruction

/-!
# Every quorum decrypts

However a key set was made, any guardians of it decrypt if there are as many different ones as the
threshold says, and to the same elements whoever they are.  It does not matter how they come to the
board: in which order, or how often, since the board keeps those of the lowest indexes in order, and
two guardians of one index have the same secret.

Principal results:
* `ofGuardians_congr` — the order of guardians and their repetitions do not matter.
* `decrypt_of_quorum` — when guardians decrypt, and what they answer.
-/

set_option autoImplicit false

namespace PlaintextEquivalence

variable {G : PrimeGroup}

/-- A key set was made of a dealer's public polynomial or of guardians' own keys. -/
def KeySet.IsMade (keys : KeySet G) (params : ThresholdParams) : Prop :=
  (∃ polynomial, ofPolynomial params polynomial = .ok keys) ∨ ∃ own, ofKeys params own = .ok keys

/-- A guardian was accepted for a key set. -/
def Guardian.IsAccepted (keys : KeySet G) (g : Guardian G) : Prop :=
  ∃ index secret, make keys index secret = .ok g

theorem Guardian.IsAccepted.holds {keys : KeySet G} {g : Guardian G} (h : g.IsAccepted keys) :
    g.Holds keys := by
  obtain ⟨_, _, hmake⟩ := h
  exact holds_of_make hmake

namespace GuardianBoard

/-! ## Who sits on a board -/

/-- The indexes on a board are those of the given guardians, each once and in order. -/
theorem indexes_ofGuardians (guardians : List (Guardian G)) (tape : Tape) :
    (ofGuardians guardians tape).guardians.map (·.index) =
      (guardians.map (·.index)).toFinset.sort (· ≤ ·) := by
  have hordered : ((ofGuardians guardians tape).guardians.map (·.index)).Pairwise (· ≤ ·) :=
    List.pairwise_map.2 ((foldl_seat guardians .nil).1.imp UInt64.le_of_lt)
  rw [← toFinset_ofGuardians guardians tape]
  exact ((List.toFinset_sort _ (nodup_ofGuardians guardians tape)).2 hordered).symm

/-- The shares of a decryption are of the guardians that decrypt, in their order. -/
theorem indexes_proveShares (election : Election G) (ciphertext : Ciphertext G) :
    ∀ (guardians : List (Guardian G)) (tape : Tape),
      (proveShares election ciphertext guardians tape).1.map (·.index) = guardians.map (·.index)
  | [], _ => rfl
  | g :: rest, tape => by
    unfold proveShares
    exact congrArg (g.index :: ·) (indexes_proveShares election ciphertext rest _)

theorem indexes_of_decryptOne {election : Election G} {guardians : List (Guardian G)}
    {ciphertext : Ciphertext G} {tape tape' : Tape} {d : G.Element × DecryptionProof G}
    (h : decryptOne election guardians ciphertext tape = (.ok d, tape')) :
    d.2.shares.map (·.index) = guardians.map (·.index) := by
  have hresult := congrArg Prod.fst h
  unfold decryptOne at hresult
  simp only [Except.bind_eq_ok] at hresult
  obtain ⟨combined, -, hd⟩ := hresult
  cases combined with
  | none => cases hd
  | some share =>
    cases hd
    exact indexes_proveShares election ciphertext guardians tape

theorem indexes_of_decryptAll {election : Election G} {guardians : List (Guardian G)} :
    ∀ {ciphertexts : List (Ciphertext G)} {tape : Tape} {ds : List (G.Element × DecryptionProof G)},
      (decryptAll election guardians ciphertexts tape).1 = .ok ds →
        ∀ d ∈ ds, d.2.shares.map (·.index) = guardians.map (·.index)
  | [], _, ds, h => by
    cases h
    exact fun _ => nofun
  | c :: rest, tape, ds, h => by
    unfold decryptAll at h
    split at h
    · cases h
    · rename_i d tape' hone
      split at h
      · cases h
      · rename_i ds' tape'' hrest
        cases h
        exact List.forall_mem_cons.2
          ⟨indexes_of_decryptOne hone, indexes_of_decryptAll (congrArg Prod.fst hrest)⟩

variable [hG : PrimeGroup.Lawful G]

/-- There is only one guardian of an index. -/
theorem eq_of_index {keys : KeySet G} {g h : Guardian G} (hg : g.Holds keys) (hh : h.Holds keys)
    (hindex : g.index = h.index) : g = h := by
  obtain ⟨key, hkey, hsecret⟩ := hg.secret
  obtain ⟨key', hkey', hsecret'⟩ := hh.secret
  obtain rfl : key = key' := Option.some.inj (hkey.symm.trans (hindex ▸ hkey'))
  have hequal : g.secret = h.secret :=
    PrimeGroup.mulGenerator_injective (hsecret.symm.trans hsecret')
  have hkeys := hg.sameKeys.trans hh.sameKeys.symm
  cases g
  cases h
  cases hindex
  cases hequal
  cases hkeys
  rfl

variable {keys : KeySet G} {guardians : List (Guardian G)}

theorem mem_ofGuardians (hholds : ∀ g ∈ guardians, g.Holds keys) {tape : Tape} {g : Guardian G} :
    g ∈ (ofGuardians guardians tape).guardians ↔ g ∈ guardians := by
  refine ⟨mem_of_mem_ofGuardians, fun hg => ?_⟩
  have hindex : g.index ∈ (ofGuardians guardians tape).guardians.map (·.index) := by
    rw [← List.mem_toFinset, toFinset_ofGuardians]
    exact List.mem_toFinset.2 (List.mem_map_of_mem hg)
  obtain ⟨h, hh, heq⟩ := List.mem_map.1 hindex
  rwa [← eq_of_index (hholds h (mem_of_mem_ofGuardians hh)) (hholds g hg) heq]

/-- **The order of guardians and their repetitions do not matter.** -/
theorem ofGuardians_congr (hholds : ∀ g ∈ guardians, g.Holds keys) (others : List (Guardian G))
    (hsame : ∀ g, g ∈ others ↔ g ∈ guardians) (tape : Tape) :
    ofGuardians others tape = ofGuardians guardians tape := by
  have hothers : ∀ g ∈ others, g.Holds keys := fun g hg => hholds g ((hsame g).1 hg)
  have hordered : ∀ gs : List (Guardian G),
      (ofGuardians gs tape).guardians.Pairwise (·.index < ·.index) :=
    fun gs => (foldl_seat gs .nil).1
  have hperm : (ofGuardians others tape).guardians.Perm (ofGuardians guardians tape).guardians := by
    rw [List.perm_ext_iff_of_nodup (nodup_ofGuardians others tape).of_map
      (nodup_ofGuardians guardians tape).of_map]
    intro g
    rw [mem_ofGuardians hothers, mem_ofGuardians hholds, hsame]
  have hguardians : (ofGuardians others tape).guardians = (ofGuardians guardians tape).guardians :=
    hperm.eq_of_pairwise (fun g h _ _ hgh hhg => absurd hgh (UInt64.lt_asymm hhg))
      (hordered others) (hordered guardians)
  exact congrArg (GuardianBoard.mk · tape) hguardians

end GuardianBoard

variable [hG : PrimeGroup.Lawful G]

theorem KeySet.IsMade.exists_liesOn {keys : KeySet G} {params : ThresholdParams}
    (h : keys.IsMade params) (hpos : 0 < params.threshold) (hle : params.threshold ≤ params.shares) :
    keys.params = params ∧ ∃ P, keys.LiesOn P := by
  rcases h with ⟨polynomial, hpolynomial⟩ | ⟨own, hown⟩
  · exact exists_liesOn_of_ofPolynomial hpos hle hpolynomial
  · exact exists_liesOn_of_ofKeys hpos hle hown

/-! ## What they answer -/

namespace GuardianBoard

/-- **Every quorum decrypts.**  Guardians accepted for a key set, however it was made, decrypt exactly if
there are as many different ones as the threshold says, and else say how many there are.  Each
ciphertext is decrypted with the logarithm of the joint key, in order, with a proof that is accepted and
has the shares of the guardians of the lowest indexes, in order.  For the same randomness the answer is
the same in whichever order the guardians are given and however often. -/
theorem decrypt_of_quorum {election : Election G} {params : ThresholdParams}
    (hmade : election.keys.IsMade params) (hpos : 0 < params.threshold)
    (hle : params.threshold ≤ params.shares) :
    ∃ s, election.keys.sharedKey.element = G.mulGenerator s ∧
      ∀ guardians : List (Guardian G), (∀ g ∈ guardians, g.IsAccepted election.keys) →
        ∀ (tape : Tape) (ciphertexts : List (Ciphertext G)),
          let indexes := (guardians.map (·.index)).toFinset.sort (· ≤ ·)
          let answer := (ofGuardians guardians tape).decrypt election ciphertexts
          (∀ stop, answer.1 = .error stop ↔ indexes.length < params.threshold.toNat ∧
            stop = .error (.notEnoughGuardians indexes.length params.threshold)) ∧
          (params.threshold.toNat ≤ indexes.length → ∃ ds, answer.1 = .ok ds ∧
            List.Forall₂ (fun c d => d.1 = c.data - s • c.pad ∧
              d.2.verify election c d.1 = .ok () ∧
              d.2.shares.map (·.index) = indexes.take params.threshold.toNat) ciphertexts ds) ∧
          ∀ others : List (Guardian G), (∀ g, g ∈ others ↔ g ∈ guardians) →
            (ofGuardians others tape).decrypt election ciphertexts = answer := by
  obtain ⟨rfl, P, hkeys⟩ := hmade.exists_liesOn hpos hle
  refine ⟨P.eval 0, hkeys.shared, fun guardians haccepted tape ciphertexts => ?_⟩
  have hholds : ∀ g ∈ guardians, g.Holds election.keys := fun g hg => (haccepted g hg).holds
  have hseated : ∀ g ∈ (ofGuardians guardians tape).guardians, g.Holds election.keys :=
    fun g hg => hholds g (mem_of_mem_ofGuardians hg)
  have hcount : (ofGuardians guardians tape).guardians.length =
      ((guardians.map (·.index)).toFinset.sort (· ≤ ·)).length := by
    rw [← indexes_ofGuardians guardians tape, List.length_map]
  have hsame := fun others hothers =>
    congrArg (decrypt · election ciphertexts) (ofGuardians_congr hholds others hothers tape)
  intro indexes answer
  by_cases henough : election.keys.params.threshold.toNat ≤ indexes.length
  · obtain ⟨ds, hds, hdecrypts⟩ := decrypt_of_holds hkeys hseated
      (nodup_ofGuardians guardians tape) (hcount ▸ henough) ciphertexts
    refine ⟨fun stop => ?_, fun _ => ⟨ds, hds, ?_⟩, hsame⟩
    · constructor
      · intro hstop
        cases hds.symm.trans hstop
      · exact fun h => absurd h.1 (Nat.not_lt.2 henough)
    · have hquorum := decrypt_of_enough hseated (hcount ▸ henough) ciphertexts
      have hindexes := indexes_of_decryptAll (hquorum.symm.trans hds)
      rw [List.map_take, indexes_ofGuardians] at hindexes
      refine (Paired.and_right hdecrypts hindexes).imp fun c d h => ?_
      exact ⟨h.1.decrypted, h.1.accepted, h.2⟩
  · have hfew := Nat.not_le.1 henough
    have hrefused : answer.1 =
        Checked.refuse (.notEnoughGuardians indexes.length election.keys.params.threshold) := by
      simp only [answer, decrypt, hcount]
      rw [if_pos hfew]
    refine ⟨fun stop => ?_, fun h => absurd h henough, hsame⟩
    rw [hrefused, Checked.refuse, Except.error.injEq]
    exact ⟨fun h => ⟨hfew, h.symm⟩, fun h => h.2.symm⟩

end GuardianBoard

namespace Small

theorem isMade_keys : election.keys.IsMade dealer.params := .inl ⟨_, ofPolynomial_dealer⟩

theorem isAccepted_guardians : ∀ g ∈ guardians, g.IsAccepted election.keys := by
  intro g hg
  obtain ⟨index, secret, _, hmake⟩ := make_guardians g hg
  exact ⟨index, secret, hmake⟩

/-- The encryption of the generator with no randomness. -/
def ciphertext : Ciphertext Group := ⟨0, Group.generator⟩

/-- The last guardian and the first decrypt, and the first alone does not. -/
theorem quorum_small :
    election.keys.IsMade dealer.params ∧ 0 < dealer.params.threshold ∧
      dealer.params.threshold ≤ dealer.params.shares ∧
      (∀ g ∈ guardians, g.IsAccepted election.keys) ∧
      (∃ ds, ((GuardianBoard.ofGuardians guardians tape).decrypt election [ciphertext]).1 = .ok ds) ∧
      ((GuardianBoard.ofGuardians [guardian 0 12] tape).decrypt election [ciphertext]).1 =
        .error (.error (.notEnoughGuardians 1 2)) := by
  have hpos : 0 < dealer.params.threshold := by decide
  have hle : dealer.params.threshold ≤ dealer.params.shares := by decide
  obtain ⟨_, _, hanswers⟩ := GuardianBoard.decrypt_of_quorum isMade_keys hpos hle
  have htwo := (hanswers guardians isAccepted_guardians tape [ciphertext]).2.1
  have hone := (hanswers [guardian 0 12]
    (fun g hg => isAccepted_guardians g (List.mem_cons_of_mem _ hg)) tape [ciphertext]).1
  refine ⟨isMade_keys, hpos, hle, isAccepted_guardians, ?_, (hone _).2 ⟨?_, ?_⟩⟩
  · obtain ⟨ds, hds, -⟩ := htwo (by rw [Finset.length_sort]; decide)
    exact ⟨ds, hds⟩
  · rw [Finset.length_sort]
    decide
  · rw [Finset.length_sort]
    rfl

end Small

end PlaintextEquivalence
