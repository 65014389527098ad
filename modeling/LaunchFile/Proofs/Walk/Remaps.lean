import LaunchFile.Proofs.Remaps
import LaunchFile.Proofs.Walk.Scopes

/-!
# Proofs/Walk/Remaps — what an element adds to the remappings

A `<remap>` adds one pair for what follows it, under the names that the pair has in the scope of the
element (`Moment.remap?`). Groups and nodes begin with the remappings around them and leave these as
they were, an included file begins with none (`Element.isRemapped_of_front`).
-/

namespace LaunchFile

/-! ## Reading -/

/-- The pair that the element at hand adds, under the names that it has there. -/
def Moment.remap? (w : World) (m : Moment) : Option (String × String) :=
  (m.reads w .remap (readPair w.look)).map m.scope.resolvePair

section

variable {w : World} {enter : EnterFile} {parent : String} {scope inner behind : Scope}
  {e : Element} {es rest : List Element} {s t : WalkState} {onward : Onward} {tag found : Tag}
  {added : Option (String × String)} {pairs : List (String × String)}

theorem Moment.remap?_eq_none (hpart : e.ActiveAs w parent scope found s t)
    (hremap : found ≠ .remap) :
    (Moment.children parent scope (e :: rest) s).remap? w = none := by
  rw [remap?, reads_of_ne hpart hremap]
  rfl

theorem Moment.remap?_of_inactive
    (h : outcome (WalkT.ofLaunch (e.activeTag w parent scope)) s = (.ok none, t)) :
    (Moment.children parent scope (e :: rest) s).remap? w = none := by
  rw [remap?, reads_of_inactive h]
  rfl

/-! ## An element by itself -/

/-- The remappings of what is left of an element, given the pair that it adds: what follows it has
the pair too, what is inside has those around it, and an included file has none. -/
def Onward.IsRemapped (added : Option (String × String)) (scope : Scope) : Onward → Prop
  | .done behind => ∀ pairs, scope.remaps = lastOfEach Prod.fst pairs →
    behind.remaps = lastOfEach Prod.fst (pairs ++ added.toList)
  | .inside inner _ => inner.remaps = scope.remaps ∧ added = none
  | .file _ top => top.remaps = [] ∧ added = none

theorem Scope.isSteady_remaps : IsSteady Scope.remaps :=
  ⟨fun _ _ => rfl, fun _ _ => rfl, fun _ _ => rfl, fun _ _ _ => rfl, fun _ _ _ => rfl⟩

/-- **By itself an element adds no more than its own pair**, and that to what follows it. -/
theorem Element.isRemapped_of_front (rest : List Element)
    (h : outcome (e.front w parent scope) s = (.ok onward, t)) :
    onward.IsRemapped ((Moment.children parent scope (e :: rest) s).remap? w) scope := by
  obtain ⟨found, s₁, hpart, h⟩ := outcome_bind_eq_ok h
  cases found with
  | none =>
    cases h
    rw [Moment.remap?_of_inactive hpart]
    intro pairs hpairs
    rwa [Option.toList_none, List.append_nil]
  | some tag =>
    by_cases htag : tag = .remap
    · subst htag
      obtain ⟨behind, u, hremap, h⟩ := outcome_bind_eq_ok h
      cases h
      have hread := (WalkT.eq_of_ofLaunch hremap).1
      rw [readRemap] at hread
      obtain ⟨pair, r, hpair, hbehind⟩ := outcome_bind_eq_ok hread
      cases hbehind
      rw [Moment.remap?, Moment.reads_eq_some hpart (WalkT.outcome_ofLaunch_eq hpair)]
      exact fun pairs hpairs => Scope.remaps_addRemap hpairs pair.1 pair.2
    · rw [Moment.remap?_eq_none hpart htag]
      have hkeeps := Element.keeps_of_alone Scope.isSteady_remaps (fun heq => absurd heq htag)
        (fun _ _ _ => rfl) h
      cases onward with
      | done behind =>
        intro pairs hpairs
        rw [Option.toList_none, List.append_nil, ← hpairs]
        exact hkeeps
      | inside inner finish => exact ⟨hkeeps, rfl⟩
      | file path top =>
        obtain ⟨inputs, around, rfl⟩ := hkeeps
        exact ⟨Scope.isSteady_remaps.inside e _, rfl⟩

/-- Behind an element the remappings are those before it, and its own pair. -/
theorem Element.remaps_of_walkElement (rest : List Element)
    (h : outcome (walkElement w enter parent scope e) s = (.ok behind, t))
    (hscope : scope.remaps = lastOfEach Prod.fst pairs) :
    behind.remaps = lastOfEach Prod.fst
      (pairs ++ ((Moment.children parent scope (e :: rest) s).remap? w).toList) := by
  obtain ⟨onward, u, hfront, honward⟩ := exists_front_of_walkElement h
  have hremapped := Element.isRemapped_of_front rest hfront
  cases onward with
  | done behind =>
    cases honward
    exact hremapped pairs hscope
  | inside inner finish =>
    obtain ⟨_, _, _, honward⟩ := outcome_bind_eq_ok honward
    cases honward
    rwa [hremapped.2, Option.toList_none, List.append_nil]
  | file path top =>
    obtain ⟨_, _, _, honward⟩ := outcome_bind_eq_ok honward
    cases honward
    rwa [hremapped.2, Option.toList_none, List.append_nil]

/-! ## Children -/

/-- The moments at which a walk of these children is at each of them. -/
def Moment.row (w : World) (enter : EnterFile) (parent : String) (scope : Scope) (s : WalkState) :
    List Element → List Moment
  | [] => []
  | e :: rest => .children parent scope (e :: rest) s ::
    match outcome (walkElement w enter parent scope e) s with
    | (.ok behind, t) => row w enter parent behind t rest
    | _ => []

theorem Moment.row_of_ok (h : outcome (walkElement w enter parent scope e) s = (.ok behind, t)) :
    row w enter parent scope s (e :: rest) =
      .children parent scope (e :: rest) s :: row w enter parent behind t rest := by
  rw [row, h]

/-- A walk that comes to the end was at every child. -/
theorem Moment.map_next?_row
    (h : outcome (walkChildren w enter parent scope es) s = (.ok behind, t)) :
    (row w enter parent scope s es).map next? = es.map some := by
  induction es generalizing scope s with
  | nil => rfl
  | cons e rest ih =>
    rw [walkChildren] at h
    obtain ⟨next, u, hwalk, h⟩ := outcome_bind_eq_ok h
    rw [row_of_ok hwalk, List.map_cons, List.map_cons, ih h]
    rfl

/-- **Behind some children the remappings are those before them, and the pairs of each.** -/
theorem remaps_of_walkChildren
    (h : outcome (walkChildren w enter parent scope es) s = (.ok behind, t))
    (hscope : scope.remaps = lastOfEach Prod.fst pairs) :
    behind.remaps = lastOfEach Prod.fst
      (pairs ++ (Moment.row w enter parent scope s es).filterMap (·.remap? w)) := by
  induction es generalizing scope s pairs with
  | nil =>
    rw [walkChildren] at h
    cases h
    rwa [Moment.row, List.filterMap_nil, List.append_nil]
  | cons e rest ih =>
    rw [walkChildren] at h
    obtain ⟨next, u, hwalk, h⟩ := outcome_bind_eq_ok h
    have hrest := ih h (Element.remaps_of_walkElement rest hwalk hscope)
    rw [List.filterMap_eq_flatMap_toList] at hrest ⊢
    rwa [Moment.row_of_ok hwalk, List.flatMap_cons, ← List.append_assoc]

end
end LaunchFile
