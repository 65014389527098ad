import LaunchFile.Proofs.Reading
import LaunchFile.Proofs.Substitution.Plain
import LaunchFile.Proofs.Text.Trim
import LaunchFile.Walk

/-!
# Proofs/Gate — elements whose conditions are settled before the run

A condition whose text is a boolean as it stands says the same in every scope
(`Element.isActive_of_literalCondition?`). `Element.ungated` settles all such conditions of a tree
beforehand: an element that is off is taken out with all that is inside of it, one that is on loses
its condition. What is left reads like the tree it comes from (`Opened.cases_cons`).
-/

namespace LaunchFile

/-! ## Literal booleans -/

/-- A boolean is one of four words, up to blanks around it and the case of letters. -/
theorem lowerAscii_mem_of_readBoolean? {text : String} {b : Bool}
    (h : readBoolean? text = some b) :
    Text.lowerAscii (Text.trim text) ∈ ["true", "1", "false", "0"] := by
  rw [readBoolean?] at h
  split at h <;> simp_all

/-- A boolean as it may be written has no character that means something in an attribute text. -/
theorem isPlain_of_readBoolean? {text : String} {b : Bool} (h : readBoolean? text = some b) :
    Segment.IsPlain text.toList := by
  have hall : (["true", "1", "false", "0"].all fun word =>
      word.toList.all (! Segment.isSpecial ·)) = true := rfl
  have hplain := List.all_eq_true.1 hall _ (lowerAscii_mem_of_readBoolean? h)
  rw [List.all_eq_true] at hplain
  intro c hc
  cases hspecial : Segment.isSpecial c with
  | false => rfl
  | true =>
    have hfixed : Text.isBlank c = false ∧ c.toLower = c := by
      rw [Segment.isSpecial, Bool.or_eq_true, Bool.or_eq_true, beq_iff_eq, beq_iff_eq,
        beq_iff_eq] at hspecial
      rcases hspecial with (rfl | rfl) | rfl <;> decide
    have hmem := (Text.isBlank_or_mem_trimChars hc).resolve_left (by simp [hfixed.1])
    have hlower := hplain c (by
      rw [Text.lowerAscii, Text.trim, String.toList_ofList, String.toList_ofList]
      exact List.mem_map.2 ⟨c, hmem, hfixed.2⟩)
    rw [hspecial] at hlower
    exact absurd hlower (by decide)

/-- The text of such a condition is resolved without a look-up. -/
theorem conditionValue_of_readBoolean? {text : String} {b : Bool}
    (h : readBoolean? text = some b) (look : Lookups) (scope : Scope) (name : String) :
    Element.conditionValue look scope name text = pure b := by
  rw [Element.conditionValue, Segment.evaluate_of_isPlain (isPlain_of_readBoolean? h)]
  show (liftM (readBoolean name text) : LaunchM Bool) = pure b
  rw [readBoolean, h]
  rfl

/-! ## Gates -/

namespace Element

/-- What a condition says whose text is a boolean as it stands. -/
def literalCondition? (e : Element) : Option Bool :=
  match e.attr? "if", e.attr? "unless" with
  | some text, none => readBoolean? text
  | none, some text => (readBoolean? text).map (!·)
  | _, _ => none

/-- What the literal condition says of a child that its parent allows. -/
def gate? (parent : String) (e : Element) : Option Bool :=
  if (Tag.child? parent e.tag).isSome then e.literalCondition? else none

/-- The element with its conditions taken off. -/
def unconditional : Element → Element
  | .mk tag attrs children text location =>
    .mk tag (attrs.filterNames (· ∉ conditionAttrs)) children text location

mutual

/-- The tree with the literal conditions of all elements below its root settled. -/
def ungated : Element → Element
  | .mk tag attrs children text location => .mk tag attrs (ungatedIn tag children) text location

/-- Children of an element with the tag `parent`: those whose literal conditions hold lose them, and
those whose literal conditions do not hold are gone. -/
def ungatedIn (parent : String) : List Element → List Element
  | [] => []
  | e :: rest =>
    match e.gate? parent with
    | none => ungated e :: ungatedIn parent rest
    | some true => (ungated e).unconditional :: ungatedIn parent rest
    | some false => ungatedIn parent rest

end

/-- **A literal condition says the same in every scope.** -/
theorem isActive_of_literalCondition? {e : Element} {b : Bool}
    (h : e.literalCondition? = some b) (look : Lookups) (scope : Scope) :
    e.isActive look scope = pure b := by
  rw [literalCondition?] at h
  rw [isActive]
  split at h
  · rename_i text hif hunless
    simp only [hif, hunless, conditionValue_of_readBoolean? h]
    rfl
  · rename_i text hif hunless
    obtain ⟨held, hheld, rfl⟩ := Option.map_eq_some_iff.1 h
    simp only [hif, hunless, conditionValue_of_readBoolean? hheld]
    rfl
  · cases h

/-- A gate stands at a child that its parent allows, and says what the literal condition says. -/
theorem exists_child_of_gate? {parent : String} {e : Element} {b : Bool}
    (h : e.gate? parent = some b) :
    (∃ tag, Tag.child? parent e.tag = some tag) ∧ e.literalCondition? = some b := by
  rw [gate?] at h
  split at h
  · rename_i hsome
    exact ⟨Option.isSome_iff_exists.1 hsome, h⟩
  · cases h

/-! ## What stays the same -/

/-- Taking the conditions off leaves all other attributes. -/
theorem attr?_unconditional (e : Element) (name : String) :
    e.unconditional.attr? name = if name ∉ conditionAttrs then e.attr? name else none := by
  obtain ⟨tag, attrs, children, text, location⟩ := e
  have h := Dict.get?_filterNames (fun name => decide (name ∉ conditionAttrs)) attrs name
  simp only [decide_eq_true_eq] at h
  exact h

/-- An element without its conditions is active in every scope. -/
theorem isActive_unconditional (e : Element) (look : Lookups) (scope : Scope) :
    e.unconditional.isActive look scope = pure true := by
  have hif : e.unconditional.attr? "if" = none := by
    rw [attr?_unconditional, if_neg (by decide)]
  have hunless : e.unconditional.attr? "unless" = none := by
    rw [attr?_unconditional, if_neg (by decide)]
  simp only [isActive, hif, hunless]
  rfl

end Element

/-! ## Trees with some gates settled -/

/-- Children of which nothing or every gate is settled. -/
def Opened (parent : String) (es es' : List Element) : Prop :=
  es' = es ∨ es' = Element.ungatedIn parent es

/-- Two elements that take part together, read alike and have the same children but for gates. -/
structure Element.Alike (e e' : Element) : Prop extends e.SameReading e' where
  children : Opened e.tag e.children e'.children
  isActive : ∀ (look : Lookups) scope, e'.isActive look scope = e.isActive look scope

namespace Element.Alike

/-- An element is like itself. -/
theorem refl (e : Element) : e.Alike e :=
  ⟨.refl e, .inl rfl, fun _ _ => rfl⟩

/-- An element is like the one with the gates below it settled. -/
theorem ungated (e : Element) : e.Alike e.ungated := by
  obtain ⟨tag, attrs, children, text, location⟩ := e
  exact ⟨⟨rfl, rfl, rfl, fun _ _ => rfl⟩, .inr rfl, fun _ _ => rfl⟩

/-- An element whose literal condition holds is like one that has lost it. -/
theorem unconditional {e e' : Element} (h : e.Alike e') (hon : e.literalCondition? = some true) :
    e.Alike e'.unconditional := by
  obtain ⟨tag, attrs, children, text, location⟩ := e'
  refine ⟨⟨h.tag, h.text, h.location, fun name hname => ?_⟩, h.children, fun look scope => ?_⟩
  · rw [attr?_unconditional, if_pos hname, h.attr? name hname]
  · rw [isActive_unconditional, isActive_of_literalCondition? hon]

end Element.Alike

/-- **The first of several children stays, alike, or is off and taken out.** -/
theorem Opened.cases_cons {parent : String} {e : Element} {rest es' : List Element}
    (h : Opened parent (e :: rest) es') :
    (∃ e' rest', es' = e' :: rest' ∧ e.Alike e' ∧ Opened parent rest rest') ∨
      (Opened parent rest es' ∧ (∃ tag, Tag.child? parent e.tag = some tag) ∧
        ∀ (look : Lookups) scope, e.isActive look scope = pure false) := by
  rcases h with rfl | rfl
  · exact .inl ⟨e, rest, rfl, .refl e, .inl rfl⟩
  · rw [Element.ungatedIn]
    cases hgate : e.gate? parent with
    | none => exact .inl ⟨_, _, rfl, .ungated e, .inr rfl⟩
    | some b =>
      obtain ⟨htag, hliteral⟩ := Element.exists_child_of_gate? hgate
      cases b with
      | true => exact .inl ⟨_, _, rfl, (Element.Alike.ungated e).unconditional hliteral, .inr rfl⟩
      | false => exact .inr ⟨.inr rfl, htag, Element.isActive_of_literalCondition? hliteral⟩

/-- Where there are no children, none are left. -/
theorem Opened.eq_nil {parent : String} {es' : List Element} (h : Opened parent [] es') :
    es' = [] :=
  h.elim id id

end LaunchFile
