import LaunchFile.Substitution.Resolve

/-!
# Proofs/Substitution/Plain — a text without directives stands for itself

A text with no dollar and no parenthesis is read as one literal segment, whatever else is in it, so
that it resolves to itself in every scope and leaves the made-up names alone.
-/

namespace LaunchFile.Segment

/-- The characters that mean something in an attribute text. -/
def isSpecial (c : Char) : Bool :=
  c == '$' || c == '(' || c == ')'

/-- A text in which every character is literal. -/
def IsPlain (cs : List Char) : Prop :=
  ∀ c ∈ cs, isSpecial c = false

instance (cs : List Char) : Decidable (IsPlain cs) :=
  List.decidableBAll (fun c => isSpecial c = false) cs

/-- Literal characters are collected up to the end. -/
theorem segments_of_isPlain (whole : String) : ∀ {cs literal : List Char}, IsPlain cs →
    segments whole false 0 literal cs = .ok (prepend (cs.reverse ++ literal) [])
  | [], literal, _ => by rw [segments, List.reverse_nil, List.nil_append]
  | c :: cs, literal, h => by
    have hc : isSpecial c = false := h c List.mem_cons_self
    simp only [isSpecial, Bool.or_eq_false_iff, beq_eq_false_iff_ne] at hc
    obtain ⟨⟨hdollar, hopen⟩, hclose⟩ := hc
    have ih : segments whole false 0 (c :: literal) cs =
        .ok (prepend (cs.reverse ++ c :: literal) []) :=
      segments_of_isPlain whole fun d hd => h d (List.mem_cons_of_mem _ hd)
    rw [segments]
    · simpa [hopen, hclose] using ih
    · exact fun _ heq => absurd heq hdollar
    · exact fun _ heq => absurd heq hdollar

theorem parse_of_isPlain {text : String} (h : IsPlain text.toList) :
    parse text = .ok [.text text] := by
  rw [parse, segments_of_isPlain text h, List.append_nil, prepend]
  cases htext : text.toList with
  | nil =>
    rw [String.toList_eq_nil_iff.1 htext]
    rfl
  | cons c cs =>
    have hsome : ((c :: cs).reverse).isEmpty = false := by simp
    rw [hsome, List.reverse_reverse, ← htext, String.ofList_toList]
    rfl

/-- **A plain text resolves to itself.** -/
theorem evaluate_of_isPlain {text : String} (h : IsPlain text.toList) (scope : Scope)
    (look : Lookups) : evaluate scope look text = pure text := by
  rw [evaluate_eq, parse_of_isPlain h]
  show (pure (text ++ "") : ResolveM String) = pure text
  rw [String.append_empty]

end LaunchFile.Segment
