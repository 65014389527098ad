import LaunchFile.Proofs.Walk.Failing
import LaunchFile.Proofs.Walk.Scopes

/-!
# Proofs/Run/Located — the places of errors

The documents of a run are its text and the texts of the files that it opens. At every moment of a
run the elements that are next are elements of one of them, the one that the current file labels
(`InRun.inDocument`). So what fails by itself fails at a place in the document that it stands in,
and with that place the run ends (`interpretText_located`).
-/

namespace LaunchFile

open Moment (InRun)

/-! ## Documents -/

section

variable (w : World) (file : Option Path) (args : List (String × String)) (source : String)
  (registry : AnonRegistry)

/-- The documents of the run of a text, with the files that label them: the text itself and the
texts of the files that it opens. -/
inductive IsDocument : String → Option Path → Prop
  | top : IsDocument source file
  | included {root levels path top s text} : Element.parse source file = .ok root →
    InRun w (topScope file args) root registry (levels + 1) (.opening path top s) →
    w.files.readText path = .ok text → IsDocument text (some path)

/-- Elements of one document of the run, the one that this file labels. -/
def InOneDocument (label : Option Path) (es : List Element) : Prop :=
  ∃ text tree, IsDocument w file args source registry text label ∧
    Element.ofText? text label = some tree ∧ ∀ e ∈ es, tree.IsIn e

/-- What is next at a moment stands in the document of the current file. -/
def Moment.InDocument : Moment → Prop
  | .children _ scope es _ => InOneDocument w file args source registry scope.file es
  | .opening path scope _ => scope.file = some path

variable {w file args source registry} {root : Element} {levels : Nat} {m m' : Moment}
  {err : LaunchError}

theorem InOneDocument.imp {label : Option Path} {es es' : List Element}
    (h : InOneDocument w file args source registry label es)
    (hes : ∀ tree : Element, (∀ e ∈ es, tree.IsIn e) → ∀ e ∈ es', tree.IsIn e) :
    InOneDocument w file args source registry label es' := by
  obtain ⟨text, tree, hdocument, htree, hin⟩ := h
  exact ⟨text, tree, hdocument, htree, hes tree hin⟩

theorem Moment.Leads.inDocument {enter : EnterFile} (h : m.Leads w enter m')
    (hm : m.InDocument w file args source registry) :
    m'.InDocument w file args source registry := by
  have hfile := h.file_eq
  cases h with
  | @past _ scope _ _ _ scope' _ _ =>
    have hfile : scope'.file = scope.file := hfile
    rw [Moment.InDocument, hfile]
    exact hm.imp fun _ hin e he => hin e (List.mem_cons_of_mem _ he)
  | @group _ scope _ _ _ _ inner _ _ _ =>
    have hfile : inner.file = scope.file := hfile
    rw [Moment.InDocument, hfile]
    exact hm.imp fun _ hin c hc => .child (hin _ List.mem_cons_self) hc
  | @node _ scope e _ _ _ node _ _ _ _ =>
    have hfile : (e.inside node.scope).file = scope.file := hfile
    rw [Moment.InDocument, hfile]
    exact hm.imp fun _ hin c hc => .child (hin _ List.mem_cons_self) hc
  | «include» _ _ => exact hfile

/-- **At every moment of a run, what is next stands in the document of the current file.** -/
theorem Moment.InRun.inDocument (hparse : Element.parse source file = .ok root)
    (h : InRun w (topScope file args) root registry levels m) :
    m.InDocument w file args source registry := by
  induction h with
  | start hroot =>
    have hinner := eq_inside_of_enterRoot ⟨_, _, hroot⟩
    have hfile := (Scope.SamePlace.refl (topScope file args)).inside root
    rw [Moment.InDocument, hinner, hfile.file]
    exact ⟨source, root, .top, Element.ofText?_of_parse hparse, fun c hc => .child .root hc⟩
  | within _ hleads ih => exact hleads.inDocument ih
  | @into levels path top s tree inner t hopening htree hroot ih =>
    obtain ⟨text, hread, htext⟩ := Except.bind_eq_ok htree
    have hinner := eq_inside_of_enterRoot ⟨_, _, hroot⟩
    have hfile := ((Scope.SamePlace.refl top).inside tree).file.trans ih
    rw [Moment.InDocument, hinner, hfile]
    exact ⟨text, tree, .included hparse hopening hread, Element.ofText?_of_parse htext,
      fun c hc => .child .root hc⟩

/-! ## Errors -/

/-- **What fails by itself fails in the document of the current file**; an element does at its own
place or at that of one of its children. -/
theorem Moment.InRun.standsIn (hparse : Element.parse source file = .ok root)
    (hm : InRun w (topScope file args) root registry levels m) (h : m.Fails w levels err) :
    (∃ text, IsDocument w file args source registry text m.scope.file ∧
      err.StandsIn text m.scope.file) ∧
    ∀ e, m.next? = some e → ∃ x ∈ e :: e.children, err.location = some x.location := by
  have hdocument := hm.inDocument hparse
  have helement : ∀ {parent scope e rest s},
      Moment.InDocument w file args source registry (.children parent scope (e :: rest) s) →
      (∃ x ∈ e :: e.children, err.location = some x.location) →
      ∃ text, IsDocument w file args source registry text scope.file ∧
        err.StandsIn text scope.file := by
    rintro parent scope e rest s ⟨text, tree, htext, htree, hin⟩ ⟨x, hx, hlocation⟩
    have he := hin e List.mem_cons_self
    have hxin : tree.IsIn x := by
      rcases List.mem_cons.1 hx with rfl | hx
      · exact he
      · exact .child he hx
    exact ⟨text, htext, .element htree hxin hlocation⟩
  cases h with
  | @front _ _ _ e _ s err _ hfront =>
    have hplace := ((keeps_front _).of_error (.refl s) hfront).place_locate
    refine ⟨helement hdocument hplace, fun e' he' => ?_⟩
    cases he'
    exact hplace
  | @unfound _ _ _ e _ _ _ _ _ err _ _ hfind =>
    have hplace : ∃ x ∈ e :: e.children, (err.locate e.location).location = some x.location := by
      rw [LaunchError.location_locate, location_of_findFile hfind]
      exact ⟨e, List.mem_cons_self, rfl⟩
    refine ⟨helement hdocument hplace, fun e' he' => ?_⟩
    cases he'
    exact hplace
  | @text _ path top _ text _ _ hread htext =>
    have hfile : top.file = some path := hdocument
    refine ⟨⟨text, ?_⟩, nofun⟩
    rw [Moment.scope, hfile]
    exact ⟨.included hparse hm hread, standsIn_of_enterText htext⟩

/-- A run that fails does so at its text, or something that it comes to fails by itself. -/
theorem enterText_or_failsInRun_of_error
    (h : (outcome (interpretText w file args source) registry).1 = .error err) :
    (∃ u, outcome (WalkT.enterText w (topScope file args) source file)
      (.start registry (topScope file args)) = (.error err, u)) ∨
    ∃ root, Element.parse source file = .ok root ∧
      FailsInRun w (topScope file args) root registry err := by
  cases hparse : Element.parse source file with
  | error err' =>
    rw [interpretText_of_error hparse] at h
    obtain rfl : err' = err := Except.error.inj h
    refine .inl ⟨.start registry (topScope file args), ?_⟩
    rw [WalkT.enterText, hparse]
    rfl
  | ok root =>
    rcases enterRoot_or_failsInRun_of_walked ((interpretText_eq_error hparse).1 h) with
      ⟨u, hroot⟩ | hfails
    · refine .inl ⟨u, ?_⟩
      rw [WalkT.enterText, hparse]
      exact hroot
    · exact .inr ⟨root, rfl, hfails⟩

/-- **Every failure is located in the right file.** If the run of a text fails, its text does or
something that the run comes to, by itself. The error stands in a document of the run: it has the
place of an element of that document, in the file that labels it, or tells where the document is not
well formed. And whatever fails by itself, at any moment of the run and so at any depth of elements
and of included files, its error is the error of the run as it is, with its place in the document of
the file that is current there. -/
theorem interpretText_located (w : World) (file : Option Path) (args : List (String × String))
    (source : String) (registry : AnonRegistry) :
    let run := (outcome (interpretText w file args source) registry).1
    let scope := topScope file args
    (∀ err, run = .error err →
      ((∃ u, outcome (WalkT.enterText w scope source file) (.start registry scope) =
        (.error err, u)) ∨
        ∃ root, Element.parse source file = .ok root ∧ FailsInRun w scope root registry err) ∧
      ∃ text label place, IsDocument w file args source registry text label ∧
        err.StandsIn text label ∧ err.location = some place ∧ place.file = label) ∧
    ∀ root levels m err, Element.parse source file = .ok root →
      InRun w scope root registry levels m → m.Fails w levels err →
      run = .error err ∧
      (∃ text place, IsDocument w file args source registry text m.scope.file ∧
        err.StandsIn text m.scope.file ∧ err.location = some place ∧
        place.file = m.scope.file) ∧
      ∀ e, m.next? = some e → ∃ x ∈ e :: e.children, err.location = some x.location := by
  intro run scope
  constructor
  · intro err hrun
    have horigin := enterText_or_failsInRun_of_error hrun
    have hstands : ∃ text label, IsDocument w file args source registry text label ∧
        err.StandsIn text label := by
      rcases horigin with ⟨u, henter⟩ | ⟨root, hparse, levels, m, hm, hfails⟩
      · exact ⟨source, file, .top, standsIn_of_enterText henter⟩
      · obtain ⟨⟨text, hstands⟩, _⟩ := hm.standsIn hparse hfails
        exact ⟨text, _, hstands⟩
    obtain ⟨text, label, hdocument, hstands⟩ := hstands
    obtain ⟨place, hplace, hlabel⟩ := hstands.exists_location
    exact ⟨horigin, text, label, place, hdocument, hstands, hplace, hlabel⟩
  · intro root levels m err hparse hm hfails
    obtain ⟨⟨text, hdocument, hstands⟩, hnext⟩ := hm.standsIn hparse hfails
    obtain ⟨place, hplace, hlabel⟩ := hstands.exists_location
    refine ⟨(interpretText_eq_error hparse).2 (hfails.ends hm.passesOn), ?_, hnext⟩
    exact ⟨text, place, hdocument, hstands, hplace, hlabel⟩

/-- A parameter without a value, two files and a group below the text of the run. -/
theorem interpretText_located_inner :
    let outer := "<launch><group><include file='inner.launch'/></group></launch>"
    let inner := "<launch>\n  <param name='rate'/>\n</launch>"
    let files : MemoryFiles :=
      [("outer.launch", outer.toUTF8.toList), ("inner.launch", inner.toUTF8.toList)]
    let w : World := ⟨⟨fun _ => none, fun _ => none⟩, files.toFiles, true, "noetic"⟩
    let source := "<launch><include file='outer.launch'/></launch>"
    let innermost : Location := ⟨some ⟨"inner.launch"⟩, 2, 3⟩
    ∃ err, (outcome (interpretText w none [] source) .empty).1 = .error err ∧
      err.location = some innermost ∧ ∃ text,
        IsDocument w none [] source .empty text innermost.file ∧
          err.StandsIn text innermost.file := by
  intro outer inner files w source innermost
  have hrun : (match (outcome (interpretText w none [] source) .empty).1 with
      | .error err => err.location
      | .ok _ => none) = some innermost := by
    decide +kernel
  cases herror : (outcome (interpretText w none [] source) .empty).1 with
  | ok model =>
    rw [herror] at hrun
    cases hrun
  | error err =>
    rw [herror] at hrun
    have hlocated := (interpretText_located w none [] source .empty).1
    obtain ⟨_, text, label, place, hdocument, hstands, hplace, hlabel⟩ := hlocated err herror
    obtain rfl : place = innermost := Option.some.inj (hplace.symm.trans hrun)
    subst hlabel
    exact ⟨err, rfl, hrun, text, hdocument, hstands⟩

end
end LaunchFile
