import PlaintextEquivalence.Proofs.Election.Decryption
import PlaintextEquivalence.Proofs.Group.Residue
import PlaintextEquivalence.Proofs.Lists

/-!
# A board of guardians decrypts

A board keeps one guardian of each index, ordered by index.  If it has as many as the threshold
says, all of them with the secrets of their keys, it decrypts every ciphertext to what the secret that
nobody holds would give, with a proof that is accepted.

Principal results:
* `toFinset_ofGuardians` — the indexes on a board are those of its guardians.
* `decrypt_of_holds` — what a board with enough guardians answers.
-/

set_option autoImplicit false

namespace PlaintextEquivalence

open Polynomial

variable {G : PrimeGroup}

/-! ## Seating -/

namespace GuardianBoard

theorem mem_of_mem_seat {g h : Guardian G} :
    ∀ {seated : List (Guardian G)}, h ∈ seat g seated → h = g ∨ h ∈ seated
  | [], hm => .inl (List.mem_singleton.1 hm)
  | s :: rest, hm => by
    unfold seat at hm
    split at hm
    · exact List.mem_cons.1 hm
    · split at hm
      · exact .inr hm
      · rcases List.mem_cons.1 hm with rfl | hm
        · exact .inr List.mem_cons_self
        · exact (mem_of_mem_seat hm).imp_right (List.mem_cons_of_mem _)

/-- A guardian is seated before those of higher indexes and after those of lower ones. -/
theorem pairwise_seat {g : Guardian G} :
    ∀ {seated : List (Guardian G)}, seated.Pairwise (·.index < ·.index) →
      (seat g seated).Pairwise (·.index < ·.index)
  | [], _ => List.pairwise_singleton _ _
  | s :: rest, h => by
    obtain ⟨hs, hrest⟩ := List.pairwise_cons.1 h
    unfold seat
    split
    · rename_i hlt
      refine List.pairwise_cons.2 ⟨fun t ht => ?_, h⟩
      rcases List.mem_cons.1 ht with rfl | ht
      · exact hlt
      · exact UInt64.lt_trans hlt (hs t ht)
    · rename_i hlt
      split
      · exact h
      · rename_i hne
        refine List.pairwise_cons.2 ⟨fun t ht => ?_, pairwise_seat hrest⟩
        rcases mem_of_mem_seat ht with rfl | ht
        · exact UInt64.lt_of_le_of_ne (UInt64.not_lt.1 hlt) (Ne.symm hne)
        · exact hs t ht

theorem mem_indexes_seat {g : Guardian G} {i : UInt64} :
    ∀ {seated : List (Guardian G)},
      i ∈ (seat g seated).map (·.index) ↔ i = g.index ∨ i ∈ seated.map (·.index)
  | [] => by simp [seat]
  | s :: rest => by
    unfold seat
    split
    · simp
    · split
      · rename_i heq
        simp [heq]
      · rw [List.map_cons, List.mem_cons, mem_indexes_seat, List.map_cons, List.mem_cons]
        tauto

/-- What seating one guardian after the other leads to. -/
theorem foldl_seat :
    ∀ (guardians : List (Guardian G)) {seated : List (Guardian G)},
      seated.Pairwise (·.index < ·.index) →
      (guardians.foldl (fun seated g => seat g seated) seated).Pairwise (·.index < ·.index) ∧
      (∀ g ∈ guardians.foldl (fun seated g => seat g seated) seated, g ∈ guardians ∨ g ∈ seated) ∧
      ∀ i, i ∈ (guardians.foldl (fun seated g => seat g seated) seated).map (·.index) ↔
        i ∈ guardians.map (·.index) ∨ i ∈ seated.map (·.index)
  | [], seated, h => by simp [h]
  | g :: guardians, seated, h => by
    obtain ⟨hpairwise, hmem, hindexes⟩ := foldl_seat guardians (pairwise_seat (g := g) h)
    refine ⟨hpairwise, fun k hk => ?_, fun i => ?_⟩
    · rcases hmem k hk with hk | hk
      · exact .inl (List.mem_cons_of_mem _ hk)
      · rcases mem_of_mem_seat hk with rfl | hk
        · exact .inl List.mem_cons_self
        · exact .inr hk
    · rw [List.foldl_cons, hindexes, mem_indexes_seat, List.map_cons, List.mem_cons]
      tauto

theorem mem_of_mem_ofGuardians {guardians : List (Guardian G)} {tape : Tape} {g : Guardian G}
    (h : g ∈ (ofGuardians guardians tape).guardians) : g ∈ guardians :=
  ((foldl_seat guardians .nil).2.1 g h).resolve_right List.not_mem_nil

theorem nodup_ofGuardians (guardians : List (Guardian G)) (tape : Tape) :
    ((ofGuardians guardians tape).guardians.map (·.index)).Nodup := by
  rw [List.nodup_iff_pairwise_ne, List.pairwise_map]
  exact (foldl_seat guardians .nil).1.imp fun h => UInt64.ne_of_lt h

/-- The indexes on a board are those of its guardians. -/
theorem toFinset_ofGuardians (guardians : List (Guardian G)) (tape : Tape) :
    ((ofGuardians guardians tape).guardians.map (·.index)).toFinset =
      (guardians.map (·.index)).toFinset := by
  ext i
  rw [List.mem_toFinset, List.mem_toFinset]
  exact ((foldl_seat guardians .nil).2.2 i).trans (or_iff_left List.not_mem_nil)

theorem length_ofGuardians (guardians : List (Guardian G)) (tape : Tape) :
    (ofGuardians guardians tape).guardians.length = (guardians.map (·.index)).toFinset.card := by
  rw [← toFinset_ofGuardians guardians tape,
    List.toFinset_card_of_nodup (nodup_ofGuardians guardians tape), List.length_map]

end GuardianBoard

/-! ## Shares -/

/-- The secret of a guardian is that of a key. -/
structure Guardian.Holds (keys : KeySet G) (g : Guardian G) : Prop where
  sameKeys : g.keys = keys
  secret : ∃ key, keys.participantKey? g.index = some key ∧ key.element = G.mulGenerator g.secret

theorem Guardian.holds_of_make {keys : KeySet G} {index : UInt64} {secret : G.Scalar}
    {g : Guardian G} (h : make keys index secret = .ok g) : g.Holds keys := by
  unfold make at h
  split at h
  · cases h
  · rename_i key hkey
    split at h
    · rename_i hsecret
      cases h
      exact ⟨rfl, key, hkey, hsecret.symm⟩
    · cases h

theorem DecryptionProof.verifyShares_eq_ok {election : Election G} {ciphertext : Ciphertext G} :
    ∀ {shares : List (ProvedShare G)} {seen : List UInt64},
      verifyShares election ciphertext seen shares = .ok () ↔
        (shares.map (·.index)).Nodup ∧ ∀ s ∈ shares, s.index ∉ seen ∧
          election.verifyShare s.share ciphertext s.index s.proof = .ok ()
  | [], seen => by simp [verifyShares]
  | s :: rest, seen => by
    unfold verifyShares
    split
    · rename_i hseen
      simp [hseen]
    · rename_i hseen
      split
      · rename_i e he
        simp [he]
      · rename_i hs
        rw [verifyShares_eq_ok, List.map_cons, List.nodup_cons, List.forall_mem_cons]
        constructor
        · rintro ⟨hn, hr⟩
          refine ⟨⟨fun hmem => ?_, hn⟩, ⟨hseen, hs⟩, fun t ht => ?_⟩
          · obtain ⟨t, ht, heq⟩ := List.mem_map.1 hmem
            exact (hr t ht).1 (heq ▸ List.mem_cons_self)
          · exact ⟨fun h => (hr t ht).1 (List.mem_cons_of_mem _ h), (hr t ht).2⟩
        · rintro ⟨⟨hne, hn⟩, _, hr⟩
          refine ⟨hn, fun t ht => ⟨fun hmem => ?_, (hr t ht).2⟩⟩
          rcases List.mem_cons.1 hmem with heq | hmem
          · exact hne (heq ▸ List.mem_map_of_mem ht)
          · exact (hr t ht).1 hmem

/-! ## Decryption -/

namespace GuardianBoard

instance : ReflBEq (PublicKey G) := ⟨fun {key} => beq_self_eq_true key.bytes⟩

theorem agrees_of_holds {election : Election G} {g : Guardian G} (h : g.Holds election.keys) :
    agrees election g = true := by
  simp [agrees, h.sameKeys]

/-- What a proved share of a guardian is. -/
structure IsShareOf (election : Election G) (ciphertext : Ciphertext G) (s : ProvedShare G)
    (g : Guardian G) : Prop where
  index : s.index = g.index
  share : s.share.element = g.secret • ciphertext.pad
  accepted : election.verifyShare s.share ciphertext s.index s.proof = .ok ()

theorem indexes_of_shares {election : Election G} {ciphertext : Ciphertext G}
    {shares : List (ProvedShare G)} {guardians : List (Guardian G)}
    (h : List.Forall₂ (IsShareOf election ciphertext) shares guardians) :
    shares.map (·.index) = guardians.map (·.index) := by
  rw [← List.forall₂_eq_eq_eq, List.forall₂_map_left_iff, List.forall₂_map_right_iff]
  exact h.imp fun s g hs => hs.index

variable [hG : PrimeGroup.Lawful G]

theorem proveShares_of_holds {election : Election G} (ciphertext : Ciphertext G) :
    ∀ {guardians : List (Guardian G)} (tape : Tape),
      (∀ g ∈ guardians, g.Holds election.keys) →
        List.Forall₂ (IsShareOf election ciphertext)
          (proveShares election ciphertext guardians tape).1 guardians
  | [], _, _ => .nil
  | g :: rest, tape, h => by
    obtain ⟨hg, hrest⟩ := List.forall_mem_cons.1 h
    obtain ⟨key, hkey, hsecret⟩ := hg.secret
    exact .cons ⟨rfl, rfl, Election.verifyShare_proveShare hkey hsecret ciphertext tape⟩
      (proveShares_of_holds ciphertext _ hrest)

/-- What the guardians answer for one ciphertext: its decryption under the secret that nobody holds,
with a proof that is accepted. -/
structure Decrypts (election : Election G) (secret : G.Scalar) (ciphertext : Ciphertext G)
    (d : G.Element × DecryptionProof G) : Prop where
  decrypted : d.1 = ciphertext.decrypt secret
  accepted : d.2.verify election ciphertext d.1 = .ok ()

/-- The secret of a guardian is the value of the polynomial at the guardian's point. -/
theorem secret_of_holds {keys : KeySet G} {P : G.Scalar[X]} (hkeys : keys.LiesOn P)
    {g : Guardian G} (h : g.Holds keys) : g.secret = P.eval ((g.index.toNat + 1 : ℕ) : G.Scalar) := by
  obtain ⟨key, hkey, hsecret⟩ := h.secret
  rw [hkeys.participant _ _ hkey] at hsecret
  exact (PrimeGroup.mulGenerator_injective hsecret).symm

section Enough

variable {election : Election G} {P : G.Scalar[X]} {guardians : List (Guardian G)}

theorem combine_of_shares (hkeys : election.keys.LiesOn P)
    (hlen : guardians.length = election.keys.params.threshold.toNat)
    (hnodup : (guardians.map (·.index)).Nodup) (hholds : ∀ g ∈ guardians, g.Holds election.keys)
    {ciphertext : Ciphertext G} {shares : List (ProvedShare G)}
    (hshares : List.Forall₂ (IsShareOf election ciphertext) shares guardians) :
    election.keys.params.combine (⟨shares⟩ : DecryptionProof G).indexed =
      .ok (some ⟨P.eval 0 • ciphertext.pad⟩) := by
  have hindexes : (⟨shares⟩ : DecryptionProof G).indexed.map (·.1) = guardians.map (·.index) := by
    rw [DecryptionProof.indexed, List.map_map, ← indexes_of_shares hshares]
    rfl
  have hcount : (⟨shares⟩ : DecryptionProof G).indexed.length =
      election.keys.params.threshold.toNat := by
    rw [DecryptionProof.indexed, List.length_map, hshares.length_eq, hlen]
  refine ThresholdParams.combine_eval hcount ?_ hkeys.degree_lt ?_
  · rw [hindexes, ThresholdParams.areValid_iff]
    refine ⟨hnodup, fun i hi => ?_⟩
    obtain ⟨g, hg, rfl⟩ := List.mem_map.1 hi
    obtain ⟨key, hkey, _⟩ := (hholds g hg).secret
    exact hkeys.lt_of_participantKey? hkey
  · intro s hs
    obtain ⟨p, hp, rfl⟩ := List.mem_map.1 hs
    obtain ⟨g, hg, hshare⟩ := Paired.exists_right hshares hp
    simp only [hshare.share, secret_of_holds hkeys (hholds g hg), hshare.index]

/-- The shares of enough guardians are a proof of the decryption that is accepted. -/
theorem verify_proveShares (hkeys : election.keys.LiesOn P)
    (hlen : guardians.length = election.keys.params.threshold.toNat)
    (hnodup : (guardians.map (·.index)).Nodup) (hholds : ∀ g ∈ guardians, g.Holds election.keys)
    (ciphertext : Ciphertext G) (tape : Tape) :
    (⟨(proveShares election ciphertext guardians tape).1⟩ : DecryptionProof G).verify election
      ciphertext (ciphertext.decrypt (P.eval 0)) = .ok () := by
  have hshares := proveShares_of_holds ciphertext tape hholds
  have hcombine := combine_of_shares hkeys hlen hnodup hholds hshares
  rw [DecryptionProof.verify_eq_ok, DecryptionProof.verifyShares_eq_ok]
  refine ⟨hshares.length_eq.trans hlen, ⟨?_, fun s hs => ⟨List.not_mem_nil, ?_⟩⟩, _, hcombine, rfl⟩
  · rw [indexes_of_shares hshares]
    exact hnodup
  · obtain ⟨g, _, hshare⟩ := Paired.exists_right hshares hs
    exact hshare.accepted

theorem decryptOne_of_holds (hkeys : election.keys.LiesOn P)
    (hlen : guardians.length = election.keys.params.threshold.toNat)
    (hnodup : (guardians.map (·.index)).Nodup) (hholds : ∀ g ∈ guardians, g.Holds election.keys)
    (ciphertext : Ciphertext G) (tape : Tape) :
    ∃ d, (decryptOne election guardians ciphertext tape).1 = .ok d ∧
      Decrypts election (P.eval 0) ciphertext d := by
  have hcombine := combine_of_shares hkeys hlen hnodup hholds
    (proveShares_of_holds ciphertext tape hholds)
  refine ⟨(ciphertext.decrypt (P.eval 0), ⟨(proveShares election ciphertext guardians tape).1⟩),
    ?_, rfl, verify_proveShares hkeys hlen hnodup hholds ciphertext tape⟩
  unfold decryptOne
  simp only [Except.bind_eq_ok, Checked.ofFault_eq_ok]
  exact ⟨_, hcombine, rfl⟩

theorem decryptAll_of_holds (hkeys : election.keys.LiesOn P)
    (hlen : guardians.length = election.keys.params.threshold.toNat)
    (hnodup : (guardians.map (·.index)).Nodup) (hholds : ∀ g ∈ guardians, g.Holds election.keys) :
    ∀ (ciphertexts : List (Ciphertext G)) (tape : Tape),
      ∃ ds, (decryptAll election guardians ciphertexts tape).1 = .ok ds ∧
        List.Forall₂ (Decrypts election (P.eval 0)) ciphertexts ds
  | [], tape => ⟨[], rfl, .nil⟩
  | c :: rest, tape => by
    obtain ⟨d, hd, hdecrypts⟩ := decryptOne_of_holds hkeys hlen hnodup hholds c tape
    obtain ⟨ds, hds, hrest⟩ := decryptAll_of_holds hkeys hlen hnodup hholds rest
      (decryptOne election guardians c tape).2
    refine ⟨d :: ds, ?_, .cons hdecrypts hrest⟩
    unfold decryptAll
    generalize decryptOne election guardians c tape = one at hd hds
    obtain ⟨_, tape'⟩ := one
    subst hd
    simp only at hds ⊢
    generalize decryptAll election guardians rest tape' = all at hds
    obtain ⟨_, tape''⟩ := all
    subst hds
    rfl

end Enough

omit hG in
/-- A board with enough guardians of an election has those of the lowest indexes decrypt. -/
theorem decrypt_of_enough {election : Election G} {board : GuardianBoard G}
    (hseated : ∀ g ∈ board.guardians, g.Holds election.keys)
    (henough : election.keys.params.threshold.toNat ≤ board.guardians.length)
    (ciphertexts : List (Ciphertext G)) :
    (board.decrypt election ciphertexts).1 = (decryptAll election
      (board.guardians.take election.keys.params.threshold.toNat) ciphertexts board.tape).1 := by
  have hagree : board.guardians.all (agrees election) = true :=
    List.all_eq_true.2 fun g hg => agrees_of_holds (hseated g hg)
  unfold decrypt
  simp only [Nat.not_lt.2 henough, if_false, hagree, Bool.not_true, Bool.false_eq_true,
    firstItems_of_le henough]

/-- **What a board with enough guardians answers**: every ciphertext is decrypted, with a proof that is
accepted. -/
theorem decrypt_of_holds {election : Election G} {P : G.Scalar[X]}
    (hkeys : election.keys.LiesOn P) {board : GuardianBoard G}
    (hseated : ∀ g ∈ board.guardians, g.Holds election.keys)
    (hnodup : (board.guardians.map (·.index)).Nodup)
    (henough : election.keys.params.threshold.toNat ≤ board.guardians.length)
    (ciphertexts : List (Ciphertext G)) :
    ∃ ds, (board.decrypt election ciphertexts).1 = .ok ds ∧
      List.Forall₂ (Decrypts election (P.eval 0)) ciphertexts ds := by
  have hlen : (board.guardians.take election.keys.params.threshold.toNat).length =
      election.keys.params.threshold.toNat := by
    rw [List.length_take]
    exact min_eq_left henough
  have hsublist := List.take_sublist election.keys.params.threshold.toNat board.guardians
  rw [decrypt_of_enough hseated henough]
  exact decryptAll_of_holds hkeys hlen (hnodup.sublist (hsublist.map _))
    (fun g hg => hseated g (hsublist.subset hg)) ciphertexts board.tape

end GuardianBoard

/-! ## A small board -/

namespace Small

def election : Election Group := ⟨Vector.replicate 32 0, keys⟩

theorem liesOn_keys : election.keys.LiesOn dealer.polynomial :=
  Dealer.liesOn_of_dealer (by decide) (by decide) ofPolynomial_dealer

def guardian (index secret : UInt64) : Guardian Group := ⟨keys, index, Group.ofWord secret⟩

/-- The last guardian and the first. -/
def guardians : List (Guardian Group) := [guardian 2 26, guardian 0 12]

theorem make_guardians : ∀ g ∈ guardians, ∃ index secret, dealer.share index = .ok secret ∧
    Guardian.make keys index secret = .ok g := by
  unfold guardians
  rw [List.forall_mem_cons, List.forall_mem_singleton]
  exact ⟨⟨2, Group.ofWord 26, rfl, rfl⟩, ⟨0, Group.ofWord 12, rfl, rfl⟩⟩

theorem holds_guardians : ∀ g ∈ guardians, g.Holds election.keys := by
  intro g hg
  obtain ⟨_, _, _, hmake⟩ := make_guardians g hg
  exact Guardian.holds_of_make hmake

/-- A tape of ones. -/
def tape : Tape := ⟨fun _ => List.replicate 64 1, 0⟩

end Small

end PlaintextEquivalence
