import LaunchFile.Proofs.Walk.Run

/-!
# Proofs/Run/Namespace — a launch file under a namespace

A run that starts in a namespace does what the run from the root does, with every name moved under
that namespace, as long as the launch file names nothing absolute. All that is compared or prefixed
on the way (settings that take each other's place, remappings, parameters of nodes, private names)
goes along with the move.
-/

namespace LaunchFile

open Moment (InRun)

/-! ## Names that are written out -/

namespace Element

/-- The attributes of all elements that hold names to be resolved. -/
def nameAttrs : List String :=
  ["name", "ns", "param", "from", "to"]

/-- A text that stands for itself and is relative. -/
def isWrittenOut (text : String) : Bool :=
  text.toList.all (!Segment.isSpecial ·) && decide (GraphName.IsRelative text)

mutual

/-- All names in a tree are written out, and relative. -/
def writesRelative : Element → Bool
  | .mk _ attrs children _ _ =>
    nameAttrs.all (fun attr => (attrs.get? attr).all isWrittenOut) && childrenWriteRelative children

def childrenWriteRelative : List Element → Bool
  | [] => true
  | e :: rest => writesRelative e && childrenWriteRelative rest

end

theorem writesRelative_of_mem : ∀ {es : List Element}, childrenWriteRelative es = true →
    ∀ e ∈ es, e.writesRelative = true
  | [], _ => fun _ hmem => absurd hmem List.not_mem_nil
  | e :: rest, h => by
    rw [childrenWriteRelative, Bool.and_eq_true] at h
    exact List.forall_mem_cons.2 ⟨h.1, writesRelative_of_mem h.2⟩

theorem writesRelative_children {e : Element} (h : e.writesRelative = true) :
    ∀ c ∈ e.children, c.writesRelative = true := by
  cases e
  rw [writesRelative, Bool.and_eq_true] at h
  exact writesRelative_of_mem h.2

/-- A name that is written out resolves to itself. -/
theorem isRelative_of_writesRelative {e : Element} (h : e.writesRelative = true) {look : Lookups}
    {scope : Scope} {attr text : String} (hattr : attr ∈ nameAttrs)
    (htext : e.Resolves look scope attr text) : GraphName.IsRelative text := by
  obtain ⟨raw, hraw, heval⟩ := htext
  cases e
  rw [writesRelative, Bool.and_eq_true, List.all_eq_true] at h
  have hout := h.1 attr hattr
  rw [Element.attr?, Element.attrs] at hraw
  rw [hraw, Option.all_some, isWrittenOut, Bool.and_eq_true, List.all_eq_true,
    decide_eq_true_eq] at hout
  rw [Segment.evaluate_of_isPlain fun c hc => by simpa using hout.1 c hc] at heval
  exact heval.eq_of_pure ▸ hout.2

end Element

/-- **No name of a run is absolute if all names are written out and relative**, in the tree and in
the files. -/
theorem namesAre_of_writesRelative {w : World} {scope : Scope} {root : Element}
    {registry : AnonRegistry} (hroot : root.writesRelative = true)
    (hfiles : ∀ path tree, readTree w path = .ok tree → tree.writesRelative = true)
    {budget : Nat} {m : Moment} (h : InRun w scope root registry budget m) :
    m.NamesAre GraphName.IsRelative w := by
  have helements := h.forElements (fun _ => Element.writesRelative_children) hroot hfiles
  match m with
  | .children _ _ [] _ => trivial
  | .opening .. => trivial
  | .children _ _ (e :: _) _ =>
    intro tag _ _ attr hattr text htext
    have hnames : ∀ name ∈ tag.nameAttrs, name ∈ Element.nameAttrs := by cases tag <;> decide
    exact Element.isRelative_of_writesRelative (helements e List.mem_cons_self)
      (hnames attr hattr) htext

/-! ## Runs -/

/-- The scope of a run that starts in a namespace. -/
theorem topScope_renamed (file : Option Path) (args : List (String × String)) {ns : String}
    (hns : GraphName.IsWellFormed ns) :
    (topScope file args).Renamed (.under ns hns.isAbsolute)
      ((topScope file args).pushNamespace ns) where
  args := .refl _
  alike _ := .refl _
  args_eq _ := rfl
  file := rfl
  ns := ⟨by
    rw [Scope.pushNamespace, Scope.resolveName_of_isWellFormed _ hns]
    rfl, GraphName.isAbsolute_root⟩
  privateNs := .none
  remaps := rfl
  admits_remaps _ hpair := absurd hpair List.not_mem_nil
  env := rfl
  machine := rfl

/-- **Runs under a namespace.** If no namespace, parameter, remapping or target of a command that
the run from the root resolves is absolute, the run from `ns` gives the model with all names moved
under `ns`, or the same error at the same place. -/
theorem interpretTree_pushNamespace (w : World) (file : Option Path)
    (args : List (String × String)) (root : Element) (registry : AnonRegistry) (ns : String)
    (hns : GraphName.IsWellFormed ns)
    (hnames : ∀ {budget m m'}, InRun w (topScope file args) root registry budget m →
      m.Leads w (walkFile w budget) m' → m.NamesAre GraphName.IsRelative w) :
    outcome (interpretTree w ((topScope file args).pushNamespace ns) root) registry =
      ((outcome (interpretTree w (topScope file args) root) registry).1.map
          (Model.mapNames (GraphName.reroot ns)),
        (outcome (interpretTree w (topScope file args) root) registry).2) := by
  have hregions : Regions (.under ns hns.isAbsolute) w
      (InRun w (topScope file args) root registry) :=
    { region := fun _ =>
        { closed := .within
          names := fun hm hleads => (hnames hm hleads).imp fun _ => .inl }
      into := .into }
  exact (interpretTree_agree trivial hregions (w.excuses_self _) excusedAnywhere_false
    (topScope_renamed file args hns) (.refl root) registry .start).eq_map

/-- A parameter and a node in a group, under `/robot`. -/
theorem interpretTree_pushNamespace_group :
    let w : World := ⟨⟨fun _ => none, fun _ => none⟩, MemoryFiles.toFiles [], true, "noetic"⟩
    let param : Element :=
      .mk "param" (.ofPairs [("name", "~rate"), ("value", "10")]) [] none ⟨none, 3, 1⟩
    let node : Element :=
      .mk "node" (.ofPairs [("name", "driver"), ("pkg", "arm"), ("type", "driver")]) [param] none
        ⟨none, 2, 1⟩
    let group : Element := .mk "group" (.ofPairs [("ns", "arm")]) [node] none ⟨none, 1, 1⟩
    let root : Element := .mk "launch" .empty [group] none ⟨none, 0, 1⟩
    GraphName.IsWellFormed "/robot" ∧
      outcome (interpretTree w ((topScope none []).pushNamespace "/robot") root) .empty =
        ((outcome (interpretTree w (topScope none []) root) .empty).1.map
            (Model.mapNames (GraphName.reroot "/robot")),
          (outcome (interpretTree w (topScope none []) root) .empty).2) := by
  intro w param node group root
  have hns : GraphName.IsWellFormed "/robot" := ⟨["robot".toList], by decide, by decide⟩
  refine ⟨hns, interpretTree_pushNamespace w none [] root .empty "/robot" hns fun hm _ => ?_⟩
  refine namesAre_of_writesRelative (by decide) (fun path tree htree => ?_) hm
  cases htree

end LaunchFile
