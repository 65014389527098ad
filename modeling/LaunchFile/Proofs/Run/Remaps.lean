import LaunchFile.Proofs.Run.Machines
import LaunchFile.Proofs.Walk.Remaps

/-!
# Proofs/Run/Remaps — the remappings of a node are those on its trail and those inside of it

A moment has the remappings that its trail added (`Moment.Trail.remaps_eq`), and these elements are
the earlier siblings of the one at hand and of those around it, in one file
(`Moment.Trail.exists_before`). The children of a node add theirs, and that is all there is: what is
inside of a sibling, in another node or in another file is on no trail.
-/

namespace LaunchFile

open Moment (InRun Trail)

/-! ## Elements before another -/

/-- Some elements of a tree are next to each other, and these come before them among their siblings
and among those of the elements around them. -/
inductive Element.Before (tree : Element) : List Element → List Element → Prop
  | top : Before tree [] tree.children
  | past {before e rest} : Before tree before (e :: rest) → Before tree (before ++ [e]) rest
  | inside {before e rest} : Before tree before (e :: rest) → Before tree before e.children

/-- The children that are still to be walked. -/
def Moment.elements : Moment → List Element
  | .children _ _ elements _ => elements
  | .opening .. => []

/-- The tree of the run, or that of a file which it reads. -/
def World.Reads (w : World) (root tree : Element) : Prop :=
  tree = root ∨ ∃ path, readTree w path = .ok tree

section

variable {w : World} {scope : Scope} {root e : Element} {registry : AnonRegistry} {levels : Nat}
  {trail inside : List Moment} {m : Moment} {node : NodeSpec}

namespace Moment.Trail

/-- **The moments of a trail are at the elements before the one at hand**, in the tree of one
file. -/
theorem exists_before (h : Trail w scope root registry levels trail m) :
    ∃ tree before, w.Reads root tree ∧ tree.Before before m.elements ∧
      trail.map next? = before.map some := by
  induction h with
  | start _ => exact ⟨root, [], .inl rfl, .top, rfl⟩
  | past _ _ ih =>
    obtain ⟨tree, before, hreads, hbefore, hnext⟩ := ih
    refine ⟨tree, _, hreads, hbefore.past, ?_⟩
    rw [List.map_append, List.map_append, hnext]
    rfl
  | inside _ _ ih =>
    obtain ⟨tree, before, hreads, hbefore, hnext⟩ := ih
    exact ⟨tree, before, hreads, hbefore.inside, hnext⟩
  | @file _ _ _ _ _ _ _ _ _ _ tree _ _ _ _ htree _ _ =>
    exact ⟨tree, [], .inr ⟨_, htree⟩, .top, rfl⟩

/-- **A moment has the remappings that its trail added**, of each source the last. -/
theorem remaps_eq (h : Trail w scope root registry levels trail m) (hscope : scope.remaps = []) :
    m.scope.remaps = lastOfEach Prod.fst (trail.filterMap (·.remap? w)) := by
  induction h with
  | start hroot =>
    rw [Moment.scope, eq_inside_of_enterRoot ⟨_, _, hroot⟩]
    exact (Scope.isSteady_remaps.inside root scope).trans hscope
  | @past levels trail parent around e rest s behind t _ hwalk ih =>
    have hbehind := Element.remaps_of_walkElement rest hwalk ih
    rwa [List.filterMap_append, List.filterMap_eq_flatMap_toList (l := [_]), List.flatMap_singleton]
  | @inside levels trail parent around e rest s inner finish t _ hfront ih =>
    exact (Element.isRemapped_of_front rest hfront).1.trans ih
  | @file levels trail parent around e rest s path top t tree inner u _ hfront _ hroot _ =>
    have htop := (Element.isRemapped_of_front rest hfront).1
    rw [Moment.scope, eq_inside_of_enterRoot ⟨_, _, hroot⟩]
    exact (Scope.isSteady_remaps.inside tree top).trans htop

end Moment.Trail

/-! ## Nodes -/

/-- The run launches this node because of an element that it comes to past the moments of `trail`,
and at whose children it is in the moments of `inside`. -/
inductive LaunchedAmong (w : World) (scope : Scope) (root : Element) (registry : AnonRegistry) :
    List Moment → List Moment → Element → NodeSpec → Prop
  | mk {levels trail parent around e rest s s₁ entered t behind u params} (isTest : Bool) :
    Trail w scope root registry levels trail (.children parent around (e :: rest) s) →
    e.ActiveAs w parent around (.ofNode isTest) s s₁ →
    outcome (WalkT.enterNode w around isTest e) s₁ = (.ok entered, t) →
    outcome (walkChildren w (walkFile w levels) e.tag (e.inside entered.scope) e.children) t =
      (.ok behind, u) →
    LaunchedAmong w scope root registry trail
      (Moment.row w (walkFile w levels) e.tag (e.inside entered.scope) t e.children) e
      { entered.finish behind with params }

theorem LaunchedPast.among (h : LaunchedPast w scope root registry trail e node) :
    ∃ inside, LaunchedAmong w scope root registry trail inside e node := by
  obtain ⟨levels, parent, around, rest, s, spec, last, htrail, hlaunches, hnode⟩ := h
  cases hlaunches with
  | mk isTest hpart henter hinside =>
    rw [hnode]
    exact ⟨_, .mk isTest htrail hpart henter hinside⟩

/-- **A node has the remappings that its trail and its children added**, of each source the last. -/
theorem LaunchedAmong.remaps_eq (h : LaunchedAmong w scope root registry trail inside e node)
    (hscope : scope.remaps = []) :
    node.remaps = lastOfEach Prod.fst ((trail ++ inside).filterMap (·.remap? w)) := by
  cases h with
  | @mk levels _ parent around _ rest s s₁ entered t behind u params isTest htrail hpart henter
      hinside =>
    have hfront : outcome (e.front w parent around) s = (.ok (.inside (e.inside entered.scope)
        fun behind => [.node (entered.finish behind)]), t) := by
      rw [hpart.outcome_front]
      cases isTest <;> exact outcome_bind_ok henter _
    rw [List.filterMap_append]
    exact remaps_of_walkChildren hinside ((htrail.inside hfront).remaps_eq hscope)

/-- The elements of the trail stand before the node in its own file, the others inside of it. -/
theorem LaunchedAmong.exists_before (h : LaunchedAmong w scope root registry trail inside e node) :
    ∃ tree before rest, w.Reads root tree ∧ tree.Before before (e :: rest) ∧
      trail.map Moment.next? = before.map some ∧
      inside.map Moment.next? = e.children.map some := by
  cases h with
  | mk isTest htrail hpart henter hinside =>
    obtain ⟨tree, before, hreads, hbefore, hnext⟩ := htrail.exists_before
    exact ⟨tree, before, _, hreads, hbefore, hnext, Moment.map_next?_row hinside⟩

/-- **Remappings.** Along a lineage from the root scope the remappings are the pairs that were
added, each under the names that it had there, less those of which a later one has the same source.
If the run of a text succeeds, every node of the model is launched by an element of the run, and it
has just the pairs that were added at the moments of its trail and at its own children, of each
source the last. The trail is at the elements that come before the node in its own file. -/
theorem interpretText_remaps :
    (∀ changes, (Scope.root.changed changes).remaps =
        lastOfEach Prod.fst (Scope.root.addedPairs changes) ∧
      ((Scope.root.changed changes).remaps.map Prod.fst).Nodup) ∧
    ∀ (w : World) (file : Option Path) (args : List (String × String)) (source : String)
      (registry : AnonRegistry) (model : Model),
      (outcome (interpretText w file args source) registry).1 = .ok model →
      ∃ root, Element.parse source file = .ok root ∧
        let scope := topScope file args
        (∀ node ∈ model.nodes, ∃ trail inside e,
          LaunchedAmong w scope root registry trail inside e node) ∧
        ∀ trail inside e node, LaunchedAmong w scope root registry trail inside e node →
          node.remaps = lastOfEach Prod.fst ((trail ++ inside).filterMap (·.remap? w)) ∧
          (node.remaps.map Prod.fst).Nodup ∧
          ∃ tree before rest, w.Reads root tree ∧ tree.Before before (e :: rest) ∧
            trail.map Moment.next? = before.map some ∧
            inside.map Moment.next? = e.children.map some := by
  refine ⟨fun changes => ?_, fun w file args source registry model h => ?_⟩
  · have hempty : Scope.root.remaps = lastOfEach Prod.fst [] := rfl
    have hremaps := Scope.remaps_changed hempty changes
    exact ⟨hremaps, hremaps ▸ nodup_lastOfEach _⟩
  · obtain ⟨root, behind, hparse, hwalk, rfl⟩ := exists_walked_of_ok h
    refine ⟨root, hparse, fun node hnode => ?_, fun trail inside e node hlaunched => ?_⟩
    · obtain ⟨trail, e, hpast⟩ := exists_launchedPast hnode
      obtain ⟨inside, hamong⟩ := hpast.among
      exact ⟨trail, inside, e, hamong⟩
    · have hremaps := hlaunched.remaps_eq rfl
      exact ⟨hremaps, hremaps ▸ nodup_lastOfEach _, hlaunched.exists_before⟩

end

/-- A node takes over what its group and the elements before that remap, but for a source that it
remaps itself; the node behind the groups sees nothing of what is inside of these. -/
theorem interpretText_remaps_scoped :
    let w : World := ⟨⟨fun _ => none, fun _ => none⟩, MemoryFiles.toFiles [], true, "noetic"⟩
    let source := "<launch><remap from='a' to='b'/><group ns='g'><remap from='a' to='c'/>" ++
      "<node name='n' pkg='p' type='t'><remap from='~x' to='y'/><remap from='/a' to='z'/></node>" ++
      "</group><group><remap from='q' to='r'/></group><node name='m' pkg='p' type='t'/></launch>"
    (Scope.root.changed [.addRemap "a" "b", .pushNamespace "g", .addRemap "/a" "c"]).remaps =
      [("/a", "/g/c")] ∧
    ∃ root model, Element.parse source none = .ok root ∧
      (outcome (interpretText w none [] source) .empty).1 = .ok model ∧
      model.nodes.map (fun node => (node.name, node.remaps)) =
        [("/g/n", [("/g/a", "/g/c"), ("/g/n/x", "/g/y"), ("/a", "/g/z")]), ("/m", [("/a", "/b")])] ∧
      ∀ node ∈ model.nodes, ∃ trail inside e,
        LaunchedAmong w (topScope none []) root .empty trail inside e node ∧
        node.remaps = lastOfEach Prod.fst ((trail ++ inside).filterMap (·.remap? w)) := by
  intro w source
  obtain ⟨hlineage, hruns⟩ := interpretText_remaps
  refine ⟨(hlineage _).1.trans (by decide +kernel), ?_⟩
  have hrun : ((outcome (interpretText w none [] source) .empty).1.toOption.map fun model =>
      model.nodes.map fun node => (node.name, node.remaps)) =
      some [("/g/n", [("/g/a", "/g/c"), ("/g/n/x", "/g/y"), ("/a", "/g/z")]),
        ("/m", [("/a", "/b")])] := by
    decide +kernel
  obtain ⟨model, hsome, hnodes⟩ := Option.map_eq_some_iff.1 hrun
  have hok := Except.eq_ok_of_toOption hsome
  obtain ⟨root, hparse, hlaunched, hremaps⟩ := hruns w none [] source .empty model hok
  refine ⟨root, model, hparse, hok, hnodes, fun node hnode => ?_⟩
  obtain ⟨trail, inside, e, hamong⟩ := hlaunched node hnode
  exact ⟨trail, inside, e, hamong, (hremaps trail inside e node hamong).1⟩

end LaunchFile
