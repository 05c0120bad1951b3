import GameGrammar.Proofs.Snapshot.Refusal

/-! # What is restored from a snapshot

The bytes of a snapshot may come from anywhere. Whatever is restored from them is a grammar that
could have been built, that goes by names, and that a snapshot of its own gives back. -/

namespace GameGrammar.Snapshot

/-! ## From payloads to grammars -/

theorem decode_eq_ok_iff {bytes : Bytes} {g : Grammar} :
    decode bytes = .ok g ↔ ∃ p, contents bytes = .ok p ∧ restore p = .ok g := by
  rw [decode, Listing.bind_eq_ok]
  simp only [Listing.mapError_eq_ok]

theorem named_of_decode {bytes : Bytes} {g : Grammar} (h : decode bytes = .ok g) : g.Named := by
  obtain ⟨p, -, hp⟩ := decode_eq_ok_iff.mp h
  obtain ⟨-, -, hnamed, hrules⟩ := restore_eq_ok_iff.mp hp
  exact fun r hr => hnamed r (hrules ▸ hr)

/-! ## Back to a snapshot -/

/-- Every rule takes a byte of the payload at least. -/
theorem size_le_payload (g : Grammar) (source : Option String) :
    g.size ≤ (payloadOf g source).write.length := by
  have hrules := items_le_flatMap writeRule_ne_nil g.rules
  simp only [Payload.write, payloadOf, writeList, List.length_append, Grammar.size]
  omega

theorem decode_encode_named {g : Grammar} (hn : g.Named) {source : Option String}
    (hlen : (payloadOf g source).write.length < 2 ^ 32) :
    decode (encode g source) = .ok g := by
  have hsize := size_le_payload g source
  rw [decode_encode_eq (by omega) hlen, restore_payloadOf hn]
  rfl

/-- Whatever bytes a grammar is restored from, its rules can be built, go by names, and are found
by their names, and a snapshot of the grammar gives the same rules again. Rules can be built just if
they are well-formed, and what is built of them has them in their order; out of a listing they go by
names as well. -/
theorem grammars_wellFormed :
    (∀ bytes g, decode bytes = .ok g →
      Grammar.WellFormed g.rules ∧ g.Named ∧ g.Indexed ∧
      ((payloadOf g none).write.length < 2 ^ 32 →
        ∃ g', decode (encode g none) = .ok g' ∧ g'.rules = g.rules)) ∧
    (∀ rules, (∃ g, Grammar.ofRules rules = .ok g) ↔ Grammar.WellFormed rules) ∧
    (∀ rules g, Grammar.ofRules rules = .ok g → g.rules = rules ∧ g.Indexed) ∧
    ∀ text g, Listing.load text = .ok g →
      Grammar.WellFormed g.rules ∧ g.Named ∧ g.Indexed := by
  refine ⟨fun bytes g h => ?_, fun rules => Grammar.exists_ofRules_iff, fun rules g h => ?_,
    fun text g h => ?_⟩
  · have hn := named_of_decode h
    exact ⟨g.wellFormed, hn, g.indexed, fun hlen => ⟨g, decode_encode_named hn hlen, rfl⟩⟩
  · exact ⟨Grammar.ofRules_eq_ok_iff.mp h, g.indexed⟩
  · exact ⟨g.wellFormed, Listing.load_named h, g.indexed⟩

/-- The payload of a single rule with its numbers written longer than necessary and with bytes
behind it that are of no account. -/
def overlong : Bytes :=
  [251, 1, 0, 252, 1, 0, 0, 0, 0, 253, 1, 0, 0, 0, 0, 0, 0, 0, 1, 97, 251, 1, 0, 252, 0, 0, 0, 0,
    1, 98, 7, 7, 7]

def single : Grammar where
  rules := [⟨"a", [.terminal "b"]⟩]
  sound := by decide

theorem grammars_wellFormed_overlong :
    decode ((Header.ofPayload overlong 1).write ++ (overlong ++ [9])) = .ok single ∧
      Grammar.WellFormed single.rules ∧ single.Named ∧ single.Indexed ∧
      (payloadOf single none).write.length < 2 ^ 32 ∧
      (∃ g', decode (encode single none) = .ok g' ∧ g'.rules = single.rules) ∧
      (∃ g, Grammar.ofRules single.rules = .ok g ∧ g.rules = single.rules) ∧
      ∃ g, Listing.load "a ::= b" = .ok g ∧ g.Named := by
  have hread : readPayload overlong = some (payloadOf single none, [7, 7, 7]) := by
    with_unfolding_all rfl
  have hcontents : contents ((Header.ofPayload overlong 1).write ++ (overlong ++ [9])) =
      .ok (payloadOf single none) := contents_append hread rfl (by decide) [9]
  have hn : single.Named := by simp [Grammar.Named, Rule.Named, single, Clause.Named]
  have hdecode := decode_eq_ok_iff.mpr ⟨_, hcontents, restore_payloadOf hn none⟩
  have hlen : (payloadOf single none).write.length < 2 ^ 32 := by decide +kernel
  have hload : Listing.load "a ::= b" = .ok single := by with_unfolding_all rfl
  obtain ⟨hdecoded, hbuilt, hrules, hloaded⟩ := grammars_wellFormed
  obtain ⟨hwell, -, hindexed, hagain⟩ := hdecoded _ single hdecode
  obtain ⟨g, hg⟩ := (hbuilt single.rules).mpr hwell
  exact ⟨hdecode, hwell, hn, hindexed, hlen, hagain hlen, ⟨g, hg, (hrules _ g hg).1⟩,
    single, hload, (hloaded _ single hload).2.1⟩

end GameGrammar.Snapshot
