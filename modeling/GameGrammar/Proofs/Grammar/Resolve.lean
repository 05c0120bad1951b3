import GameGrammar.Grammar.Resolve

/-! # What a name stands for -/

namespace GameGrammar.Grammar

theorem mem_rules_of_mem_resolve {g : Grammar} {name : String} {r : Rule}
    (h : r ∈ g.resolve name) : r ∈ g.rules := by
  unfold resolve at h
  split at h
  · cases h
  · simp only at h
    split at h
    · next hr => exact List.mem_singleton.mp h ▸ List.mem_of_find?_eq_some hr
    · split at h
      · next hr => exact List.mem_singleton.mp h ▸ List.mem_of_find?_eq_some hr
      · exact (List.mem_filter.mp h).1

/-- A rule that is the only one for a name is a rule of the grammar. -/
theorem mem_rules_of_resolve_eq {g : Grammar} {name : String} {r : Rule}
    (h : g.resolve name = [r]) : r ∈ g.rules :=
  mem_rules_of_mem_resolve (h ▸ List.mem_singleton_self r)

end GameGrammar.Grammar
