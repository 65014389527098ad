import LaunchFile.Include
import LaunchFile.Proofs.Lockstep
import LaunchFile.Proofs.Reading
import LaunchFile.Proofs.Renaming.Basic
import LaunchFile.Proofs.Text.Trim

/-!
# Proofs/Renaming/Scope — scopes that differ in what names resolve to

Two scopes are related by a renaming when one holds the renamed names of the other and they agree in
all else, up to the condition that was met last (`Scope.Renamed`). Every text resolves alike in
them, relative names resolve to renamed names, and what an element does to one of them it does to
the other. A text with a slash in front is the only one that a renaming may not go along with.
-/

namespace LaunchFile

/-! ## Texts that go along -/

/-- A text that names nothing absolute: without the blanks around it, no slash comes first. -/
def GraphName.IsRelative (text : String) : Prop :=
  (Text.trimChars text.toList).head? ≠ some '/'

instance (text : String) : Decidable (GraphName.IsRelative text) :=
  inferInstanceAs (Decidable (_ ≠ _))

/-- A text whose name goes along with a renaming. -/
def Renaming.Keeps (f : Renaming) (text : String) : Prop :=
  GraphName.IsRelative text ∨ f.map = id

theorem Renaming.Keeps.trim {f : Renaming} {text : String} (h : f.Keeps text) :
    f.Keeps (String.ofList (Text.trimChars text.toList)) := by
  rw [Keeps, GraphName.IsRelative, String.toList_ofList, Text.trimChars_trimChars]
  exact h

/-! ## Related scopes -/

namespace Scope

/-- Scopes that hold each other's names under a renaming. The condition is of no account. -/
structure Renamed (f : Renaming) (s s' : Scope) : Prop extends SameTexts s s' where
  alike : f.exact → Dict.Alike s.args s'.args
  args_eq : f.ordered → s'.args = s.args
  ns : f.Sends s.ns s'.ns
  privateNs : Option.Rel f.Sends s.privateNs s'.privateNs
  remaps : s'.remaps = s.remaps.map (Prod.map f.map f.map)
  admits_remaps : ∀ pair ∈ s.remaps, f.Admits pair.1
  env : s'.env = s.env
  machine : s'.machine = s.machine

/-! ## Names -/

/-- A relative name under related namespaces, or any text that goes along. -/
theorem sends_resolveName {f : Renaming} {s s' : Scope} (hns : f.Sends s.ns s'.ns)
    (hparam : f.Sends s.paramNs s'.paramNs) {name : String} (hname : f.Keeps name) :
    f.Sends (s.resolveName name) (s'.resolveName name) := by
  rw [resolveName, resolveName]
  split
  · rename_i rest htrim
    refine ⟨?_, f.admits_normalize _⟩
    rcases hname with hname | hname
    · exact absurd (congrArg List.head? htrim) hname
    · rw [hname, id]
  · exact hparam.join _
  · exact hns.join _

namespace Renamed

variable {f : Renaming} {s s' : Scope}

theorem paramNs (h : s.Renamed f s') : f.Sends s.paramNs s'.paramNs := by
  have hprivate := h.privateNs
  rw [Scope.paramNs, Scope.paramNs]
  generalize s.privateNs = inner, s'.privateNs = inner' at hprivate ⊢
  cases hprivate with
  | none => exact h.ns
  | some hname => exact hname

/-- **A name that goes along resolves to the renamed name.** -/
theorem resolveName (h : s.Renamed f s') {name : String} (hname : f.Keeps name) :
    f.Sends (s.resolveName name) (s'.resolveName name) :=
  sends_resolveName h.ns h.paramNs hname

theorem resolveParamName (h : s.Renamed f s') {name : String} (hname : f.Keeps name) :
    f.Sends (s.resolveParamName name) (s'.resolveParamName name) := by
  rw [Scope.resolveParamName, Scope.resolveParamName]
  split
  · exact h.resolveName hname.trim
  · exact h.paramNs.join _

/-! ## Derived scopes -/

theorem pushNamespace (h : s.Renamed f s') {name : String} (hname : f.Keeps name) :
    (s.pushNamespace name).Renamed f (s'.pushNamespace name) :=
  { h with ns := h.resolveName hname }

theorem enterNode (h : s.Renamed f s') {name name' : String} (hname : f.Sends name name') :
    (s.enterNode name).Renamed f (s'.enterNode name') :=
  { h with privateNs := .some hname }

/-- Whether a scope is entered through a condition is of no account. -/
theorem inside (h : s.Renamed f s') (e e' : Element) :
    (e.inside s).Renamed f (e'.inside s') := by
  rw [Element.inside, Element.inside]
  split <;> split <;> exact { h with }

theorem setMachine (h : s.Renamed f s') (name : String) :
    (s.setMachine name).Renamed f (s'.setMachine name) :=
  { h with machine := rfl }

theorem setEnv (h : s.Renamed f s') (name value : String) :
    (s.setEnv name value).Renamed f (s'.setEnv name value) :=
  { h with env := congrArg (·.insert name value) h.env }

theorem setArg (hexact : f.exact) (h : s.Renamed f s') (name : String) (binding : ArgBinding) :
    (s.setArg name binding).Renamed f (s'.setArg name binding) :=
  have hentries := (h.alike hexact).insert name binding
  { h with
    args := .of_alike hentries
    alike := fun _ => hentries
    args_eq := fun hordered => congrArg (·.insert name binding) (h.args_eq hordered) }

/-- A remapping takes the place of the same remapping under other names. -/
theorem addRemap (h : s.Renamed f s') {source target : String} (hsource : f.Keeps source)
    (htarget : f.Keeps target) :
    (s.addRemap source target).Renamed f (s'.addRemap source target) := by
  have hname := h.resolveName hsource
  have hkept : ∀ pair ∈ s.remaps,
      (f.map pair.1 != s'.resolveName source) = (pair.1 != s.resolveName source) := by
    intro pair hpair
    rw [Bool.eq_iff_iff, bne_iff_ne, bne_iff_ne]
    exact not_congr (Renaming.Sends.eq_iff ⟨rfl, h.admits_remaps pair hpair⟩ hname)
  refine { h with remaps := ?_, admits_remaps := fun pair hpair => ?_ }
  · rw [Scope.addRemap, Scope.addRemap]
    simp only [h.remaps, List.filter_map, List.map_append, List.map_singleton, Prod.map_apply,
      (h.resolveName htarget).eq]
    rw [← hname.eq]
    exact congrArg (fun kept => kept.map (Prod.map f.map f.map) ++ _) (List.filter_congr hkept)
  · rcases List.mem_append.1 hpair with hpair | hpair
    · exact h.admits_remaps pair (List.mem_filter.1 hpair).1
    · rw [List.mem_singleton.1 hpair]
      exact hname.admits

/-! ## What elements do to a scope -/

theorem isOverridden (hexact : f.exact) (h : s.Renamed f s') (name : String) :
    s'.isOverridden name = s.isOverridden name := by
  rw [Scope.isOverridden, Scope.isOverridden, (h.alike hexact)]

theorem bind (hexact : f.exact) (h : s.Renamed f s') (name : String) (binding : ArgBinding) :
    Except.Agree (Renamed f) (s.bind name binding) (s'.bind name binding) := by
  rw [Scope.bind, Scope.bind, (h.alike hexact)]
  split
  · exact h.setArg hexact name binding
  · split
    · exact h.setArg hexact name _
    · rfl

end Renamed

/-- Where every name stays, a scope is related to itself. -/
theorem Renamed.refl {f : Renaming} (hmap : f.map = id) (hadmits : ∀ name, f.Admits name)
    (s : Scope) : s.Renamed f s where
  args := .refl s.args
  alike _ := .refl s.args
  args_eq _ := rfl
  file := rfl
  ns := ⟨by rw [hmap, id], hadmits _⟩
  privateNs := by cases s.privateNs <;> constructor; exact ⟨by rw [hmap, id], hadmits _⟩
  remaps := by rw [hmap, Prod.map_id, List.map_id]
  admits_remaps _ _ := hadmits _
  env := rfl
  machine := rfl

theorem Renamed.same (s : Scope) : s.Renamed .same s :=
  .refl rfl (fun _ => trivial) s

end Scope
end LaunchFile
