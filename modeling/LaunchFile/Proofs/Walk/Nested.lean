import LaunchFile.Proofs.GraphName.Inner
import LaunchFile.Proofs.Faults.Basic
import LaunchFile.Proofs.Walk.Onward

/-!
# Proofs/Walk/Nested — groups directly inside of groups

A group that only names a namespace enters it and records nothing (`WalkT.enterGroup_nsGroup`), and
what goes wrong among its children has a place already (`located_walkChildren`), so that the group
itself shows in nothing but the namespace. Two such groups one inside the other are therefore one
group with both namespaces (`namespaces_compose`).
-/

namespace LaunchFile

/-! ## Places of errors -/

namespace WalkT

variable {α β : Type}

theorem located_bind (location : Location) (x : WalkM α) (f : α → WalkM β) :
    located location (x >>= f) = located location x >>= fun a => located location (f a) := by
  funext s
  change outcome (located location (x >>= f)) s =
    outcome (located location x >>= fun a => located location (f a)) s
  rw [located, outcome_adapt, outcome_bind, outcome_bind, located, outcome_adapt]
  rcases outcome x s with ⟨e | a, t⟩
  · rfl
  · exact (outcome_adapt _ _ _).symm

/-- **The place that was attached first stays.** -/
theorem located_located (outer inner : Location) (x : WalkM α) :
    located outer (located inner x) = located inner x := by
  funext s
  change outcome (located outer (located inner x)) s = outcome (located inner x) s
  rw [located, located, outcome_adapt, outcome_adapt]
  rcases outcome x s with ⟨e | a, t⟩
  · exact congrArg (fun e => (Except.error e, t))
      (LaunchError.locate_of_location (LaunchError.location_locate e inner) outer)
  · rfl

theorem located_pure (location : Location) (a : α) :
    located location (pure a : WalkM α) = pure a := rfl

end WalkT

section

variable {w : World} {enter : EnterFile} {parent : String}

/-- **Whatever goes wrong among children has a place.** -/
theorem located_walkChildren (location : Location) : ∀ (es : List Element) (scope : Scope),
    WalkT.located location (walkChildren w enter parent scope es) =
      walkChildren w enter parent scope es
  | [], scope => by
    rw [walkChildren, WalkT.located_pure]
  | e :: rest, scope => by
    have hfirst : WalkT.located location (walkElement w enter parent scope e) =
        walkElement w enter parent scope e := by
      rw [walkElement_eq, WalkT.located_located]
    have hrest := located_walkChildren location rest
    simp only [walkChildren, WalkT.located_bind, hfirst, hrest]

/-! ## Groups that only name a namespace -/

/-- A group with a namespace and no other attribute. -/
def Element.nsGroup (ns : String) (children : List Element) (text : Option String)
    (location : Location) : Element :=
  .mk "group" (.ofPairs [("ns", ns)]) children text location

variable {ns : String} {children : List Element} {text : Option String} {location : Location}

/-- Such a group reads as its namespace, and asks for nothing to be cleared. -/
theorem readGroup_nsGroup (h : GraphName.IsInner ns) (look : Lookups) (scope : Scope) :
    readGroup look scope (.nsGroup ns children text location) =
      pure (scope.pushNamespace ns, none) := by
  have hsplit : Attributes.split ns = .ok [.text ns] := by
    rw [Attributes.split, Segment.parse_of_isPlain h.isPlain]
    rfl
  have hread : Attributes.read (.nsGroup ns children text location)
      [.optional "ns", .optional "clear_params"] = .ok [("ns", [.text ns])] := by
    change (Attributes.split ns >>= fun segments => pure [("ns", segments)]) = _
    rw [hsplit]
    rfl
  have htext : Attributes.text? [("ns", [Segment.text ns])] look scope "ns" = pure (some ns) := by
    change (pure (some (ns ++ "")) : LaunchM (Option String)) = _
    rw [String.append_empty]
  have henter : scope.enterNs (some ns) = .ok (scope.pushNamespace ns) := by
    rw [Scope.enterNs, Result.ofName, h.accepted]
    rfl
  rw [readGroup, Attributes.ask_eq, hread]
  change (pure [("ns", [Segment.text ns])] >>= fun a => enterCleared look scope a _) = _
  rw [pure_bind, enterCleared, htext, pure_bind, henter]
  rfl

/-- Such a group enters its namespace and does nothing else. -/
theorem WalkT.enterGroup_nsGroup (h : GraphName.IsInner ns) (scope : Scope) :
    WalkT.enterGroup w scope (.nsGroup ns children text location) =
      pure (scope.pushNamespace ns) := by
  rw [enterGroup, readGroup_nsGroup h]
  change (WalkT.emitAll [] >>= fun _ => pure (scope.pushNamespace ns)) = _
  rw [WalkT.emitAll_nil, pure_bind]

/-- It takes part wherever groups are allowed, and shows in nothing but the namespace of its
children. -/
theorem walkElement_nsGroup (h : GraphName.IsInner ns)
    (hparent : Tag.child? parent "group" = some .group) (scope : Scope) :
    walkElement w enter parent scope (.nsGroup ns children text location) =
      WalkT.located location
        (walkChildren w enter "group" (scope.pushNamespace ns) children >>= fun _ =>
          pure scope) := by
  have hactive : Element.activeTag w parent scope (.nsGroup ns children text location) =
      pure (some .group) := by
    have htag : (Element.nsGroup ns children text location).tag = "group" := rfl
    rw [Element.activeTag, htag, hparent]
    rfl
  rw [walkElement_eq, hactive]
  change WalkT.located location (pure (some Tag.group) >>= _) = _
  rw [pure_bind, Option.elim_some, walkAs, WalkT.enterGroup_nsGroup h, pure_bind]
  rfl

/-- What its parent does not allow is skipped or refused, whatever else is known of it. -/
theorem walkElement_of_unknown {e : Element} (h : Tag.child? parent e.tag = none)
    (scope : Scope) : walkElement w enter parent scope e =
      WalkT.located e.location (liftM (w.unknown parent e) >>= fun _ => pure scope) := by
  rw [walkElement_eq, Element.activeTag, h]
  cases w.unknown parent e <;> rfl

/-- **A group directly inside of a group is one group with both namespaces.** -/
theorem walkElement_nsGroup_nsGroup {x y : String} (hx : GraphName.IsInner x)
    (hy : GraphName.IsInner y) (hne : x ≠ "") (hlast : x.toList.getLast? ≠ some '/')
    (text' text'' : Option String) (inner : Location) (scope : Scope) :
    walkElement w enter parent scope
        (.nsGroup x [.nsGroup y children text' inner] text location) =
      walkElement w enter parent scope
        (.nsGroup (x ++ "/" ++ y) children text'' location) := by
  have hxy := hx.append_slash hy hne hlast
  cases hparent : Tag.child? parent "group" with
  | none =>
    rw [walkElement_of_unknown (e := .nsGroup x _ text location) hparent,
      walkElement_of_unknown (e := .nsGroup (x ++ "/" ++ y) _ text'' location) hparent]
    rfl
  | some tag =>
    obtain rfl : tag = .group := (Option.some.inj (Option.filter_eq_some_iff.1 hparent).1).symm
    have hinner : walkElement w enter "group" (scope.pushNamespace x)
        (.nsGroup y children text' inner) =
          WalkT.located inner (walkChildren w enter "group"
            (scope.pushNamespace (x ++ "/" ++ y)) children >>= fun _ =>
              pure (scope.pushNamespace x)) := by
      rw [walkElement_nsGroup hy (by decide), scope.pushNamespace_pushNamespace hx hy hne hlast]
    rw [walkElement_nsGroup hx hparent, walkElement_nsGroup hxy hparent, walkChildren, hinner,
      WalkT.located_bind inner, located_walkChildren]
    simp only [WalkT.located_pure, walkChildren, bind_assoc, pure_bind]

end

/-! ## Composition -/

open GraphName (normalize join IsInner) in
/-- **Namespaces compose.** Normalizing is idempotent and joining is associative. So entering two
inner namespaces one behind the other is entering them at once, and a group directly inside of
another does, from every scope and every state, what one group with both namespaces does: the same
records, the same scope behind it, and the same error. -/
theorem namespaces_compose :
    (∀ name, normalize (normalize name) = normalize name) ∧
    (∀ a b c, join (join a b) c = join a (b ++ "/" ++ c)) ∧
    ∀ x y, IsInner x → IsInner y → x ≠ "" → x.toList.getLast? ≠ some '/' →
      (∀ s : Scope, (s.pushNamespace x).pushNamespace y = s.pushNamespace (x ++ "/" ++ y)) ∧
      ∀ (w : World) (enter : EnterFile) (parent : String) (scope : Scope)
        (children : List Element) (text text' text'' : Option String) (place inner : Location),
        walkElement w enter parent scope
            (.nsGroup x [.nsGroup y children text' inner] text place) =
          walkElement w enter parent scope (.nsGroup (x ++ "/" ++ y) children text'' place) := by
  refine ⟨GraphName.isAbsolute_normalize, GraphName.join_join, fun x y hx hy hne hlast => ?_⟩
  refine ⟨fun s => s.pushNamespace_pushNamespace hx hy hne hlast, ?_⟩
  intro w enter parent scope children text text' text'' place inner
  exact walkElement_nsGroup_nsGroup hx hy hne hlast text' text'' inner scope

/-- A parameter below `/arm/left`, the second namespace being written with a slash at its end. -/
theorem namespaces_compose_parameter :
    let w : World := ⟨⟨fun _ => none, fun _ => none⟩, MemoryFiles.toFiles [], true, "noetic"⟩
    let param : Element :=
      .mk "param" (.ofPairs [("name", "rate"), ("value", "10")]) [] none ⟨none, 3, 1⟩
    GraphName.IsInner "arm" ∧ GraphName.IsInner "left/" ∧ "arm" ≠ "" ∧
      "arm".toList.getLast? ≠ some '/' ∧
      walkElement w refuseFile "launch" .root
          (.nsGroup "arm" [.nsGroup "left/" [param] none ⟨none, 2, 1⟩] none ⟨none, 1, 1⟩) =
        walkElement w refuseFile "launch" .root
          (.nsGroup "arm/left/" [param] none ⟨none, 1, 1⟩) := by
  intro w param
  have harm : GraphName.IsInner "arm" := ⟨by decide, by decide, by decide⟩
  have hleft : GraphName.IsInner "left/" := ⟨by decide, by decide, by decide⟩
  refine ⟨harm, hleft, by decide, by decide, ?_⟩
  exact (namespaces_compose.2.2 "arm" "left/" harm hleft (by decide) (by decide)).2 w refuseFile
    "launch" .root [param] none none none ⟨none, 1, 1⟩ ⟨none, 2, 1⟩

end LaunchFile
