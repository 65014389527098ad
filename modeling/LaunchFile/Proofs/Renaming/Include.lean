import LaunchFile.Proofs.Gate
import LaunchFile.Proofs.Passing
import LaunchFile.Proofs.Renaming.Read

/-!
# Proofs/Renaming/Include — includes read in two scopes

What an include reads of the scope around it is little: the texts of its own attributes and of those
of its children, the directory of the current file, the namespace, and the arguments if it passes
them all. In two scopes that give the same answers (`Scope.IncludesAlike`) it leads to the same file
with the same inputs, and the top scopes of that file are related (`IncludeInputs.scopeOf_renamed`).
-/

namespace LaunchFile

/-! ## Unknown elements -/

/-- The error of an element that its parent does not allow, at the place of that element. -/
def Element.Refused (parent : String) (e : Element) (err : LaunchError) : Prop :=
  Tag.child? parent e.tag = none ∧ err = ⟨.unknownElement parent e.tag, some e.location⟩

/-- The second of two worlds differs from the first in `strict` at most, and where it lets an
element pass that the first refuses with one of these errors, the error is excused. -/
def World.Excuses (w : World) (strict : Bool) (refused excused : LaunchError → Prop) : Prop :=
  strict = w.strict ∨ w.strict = true ∧ ∀ err, refused err → excused err

/-- An error stays excused when it gets a place. -/
def ExcusedAnywhere (excused : LaunchError → Prop) : Prop :=
  ∀ location e, excused e → excused (e.locate location)

theorem World.excuses_self (w : World) (excused : LaunchError → Prop)
    {refused : LaunchError → Prop} : w.Excuses w.strict refused excused :=
  .inl rfl

theorem World.Excuses.of_imp {w : World} {strict : Bool}
    {refused refused' excused : LaunchError → Prop} (h : w.Excuses strict refused excused)
    (himp : ∀ err, refused' err → refused err) : w.Excuses strict refused' excused :=
  Or.imp_right (fun h => ⟨h.1, fun err herr => h.2 err (himp err herr)⟩) h

theorem excusedAnywhere_false : ExcusedAnywhere fun _ => False :=
  fun _ _ h => h

section

variable {f : Renaming} {w : World} {strict : Bool} {excused : LaunchError → Prop}
  {s s' : Scope} {e e' : Element} {look : Lookups}

theorem unknown_lockstep {parent : String} (hw : w.Excuses strict (e.Refused parent) excused)
    (hunknown : Tag.child? parent e.tag = none) (htag : e'.tag = e.tag) :
    Lockstep (fun err => excused (err.locate e.location)) Eq Eq
      (liftM (w.unknown parent e) : LaunchM Unit)
      (liftM (World.unknown { w with strict } parent e')) := by
  rw [World.unknown, World.unknown, htag]
  rcases hw with rfl | ⟨hstrict, hexcused⟩
  · exact .refl _
  · rw [if_pos hstrict]
    cases strict with
    | true => exact .refl _
    | false =>
      rintro registry _ rfl
      exact hexcused _ ⟨hunknown, rfl⟩

/-- Elements that take part together are admitted together. -/
theorem activeTag_lockstep {parent : String} (hw : w.Excuses strict (e.Refused parent) excused)
    (htag : e'.tag = e.tag) (hactive : e'.isActive w.look s' = e.isActive w.look s) :
    Lockstep (fun err => excused (err.locate e.location)) Eq Eq (e.activeTag w parent s)
      (e'.activeTag { w with strict } parent s') := by
  rw [Element.activeTag, Element.activeTag, htag]
  cases hunknown : Tag.child? parent e.tag with
  | none => exact .bind (unknown_lockstep hw hunknown htag) fun _ _ _ _ => .pure rfl
  | some tag =>
    simp only [hactive]
    exact .refl _

theorem activeTag_of_off {parent : String} (htag : ∃ tag, Tag.child? parent e.tag = some tag)
    (hoff : e.isActive w.look s = pure false) : e.activeTag w parent s = pure none := by
  obtain ⟨tag, htag⟩ := htag
  rw [Element.activeTag, htag]
  simp only [hoff]
  rfl

/-! ## Inputs -/

namespace IncludeInputs

/-- Inputs that hold the same, with the arguments in the same order or in any. -/
structure Alike (ordered : Prop) (inputs inputs' : IncludeInputs) : Prop where
  args : Dict.Alike inputs.args inputs'.args
  args_eq : ordered → inputs'.args = inputs.args
  named : inputs'.named = inputs.named
  env : inputs'.env = inputs.env

variable {ordered : Prop} {inputs inputs' : IncludeInputs}

theorem Alike.withArg (h : inputs.Alike ordered inputs') (name : String) (value : Option String) :
    (inputs.withArg name value).Alike ordered (inputs'.withArg name value) where
  args := by
    cases value with
    | none => exact h.args
    | some text => exact h.args.insert name text
  args_eq hordered := by
    cases value with
    | none => exact h.args_eq hordered
    | some text => exact congrArg (·.insert name text) (h.args_eq hordered)
  named := congrArg (name :: ·) h.named
  env := h.env

theorem Alike.pass (h : inputs.Alike ordered inputs') (name : String) (value : Option String) :
    Except.Agree (Alike ordered) (inputs.pass name value) (inputs'.pass name value) := by
  rw [IncludeInputs.pass, IncludeInputs.pass, h.named, h.args]
  split
  · rfl
  · exact h.withArg name value

theorem readPassed_lockstep (h : e.ReadsAlike look s s') (he : e.SameReading e')
    {passed passed' : Dict String} (hpassed : Dict.Alike passed passed') :
    Lockstep excused Eq Eq (readPassed look s passed e) (readPassed look s' passed' e') := by
  unfold readPassed passedValue
  rw [he.ask _ _ (by decide)]
  refine .bind_same fun a ha => ?_
  have hread := Attributes.read_of_yields ha
  simp only [h.text hread, h.text? hread, hpassed.contains]
  exact .refl _

theorem addChild_lockstep (hw : w.Excuses strict (e.Refused "include") excused)
    (h : e.ReadsAlike w.look s s') (he : e.Alike e') (hinputs : inputs.Alike ordered inputs') :
    Lockstep excused Eq (Alike ordered) (addChild w s inputs e)
      (addChild { w with strict } s' inputs' e') := by
  unfold addChild LaunchT.located
  rw [he.location]
  refine .locate e.location (fun _ => id) ?_
  have hactive : e'.isActive w.look s' = e.isActive w.look s := (he.isActive _ _).trans h.isActive
  refine .bind_eq (activeTag_lockstep hw he.tag hactive) fun tag _ => ?_
  split
  · unfold addArg
    refine .bind_eq (readPassed_lockstep h he.toSameReading hinputs.args) fun given _ => ?_
    exact (hinputs.pass given.1 given.2).lockstep
  · unfold addEnv
    refine .bind_eq (readEnv_eq h he.toSameReading) fun entry _ => ?_
    exact .pure { hinputs with env := congrArg (·.insert entry.1 entry.2) hinputs.env }
  · exact .pure hinputs

theorem addChildren_of_off {rest : List Element}
    (htag : ∃ tag, Tag.child? "include" e.tag = some tag)
    (hoff : e.isActive w.look s = pure false) (inputs : IncludeInputs) :
    addChildren w s inputs (e :: rest) = addChildren w s inputs rest := by
  rw [addChildren, addChild, activeTag_of_off htag hoff]
  rfl

/-- **The children of an include pass the same, whichever of their gates are settled.** -/
theorem addChildren_lockstep : ∀ {es es' : List Element} {inputs inputs' : IncludeInputs},
    w.Excuses strict (fun err => ∃ c ∈ es, c.Refused "include" err) excused →
      Opened "include" es es' → (∀ child ∈ es, child.ReadsAlike w.look s s') →
      inputs.Alike ordered inputs' →
      Lockstep excused Eq (Alike ordered) (addChildren w s inputs es)
        (addChildren { w with strict } s' inputs' es')
  | [], es', inputs, inputs', _, hes, _, hinputs => by
    rw [hes.eq_nil]
    exact .pure hinputs
  | e :: rest, es', inputs, inputs', hw, hes, h, hinputs => by
    have hfirst : w.Excuses strict (e.Refused "include") excused :=
      hw.of_imp fun _ herr => ⟨e, List.mem_cons_self, herr⟩
    have hothers : w.Excuses strict (fun err => ∃ c ∈ rest, c.Refused "include" err) excused :=
      hw.of_imp fun _ ⟨c, hc, herr⟩ => ⟨c, List.mem_cons_of_mem _ hc, herr⟩
    have hrest : ∀ child ∈ rest, child.ReadsAlike w.look s s' :=
      fun child hchild => h child (List.mem_cons_of_mem _ hchild)
    rcases hes.cases_cons with ⟨e', rest', rfl, he, hopened⟩ | ⟨hopened, htag, hoff⟩
    · rw [addChildren, addChildren]
      refine .bind (addChild_lockstep hfirst (h e List.mem_cons_self) he hinputs) ?_
      exact fun _ _ _ hbetween => addChildren_lockstep hothers hopened hrest hbetween
    · rw [addChildren_of_off htag (hoff w.look s)]
      exact addChildren_lockstep hothers hopened hrest hinputs

theorem scopeOf_renamed (h : f.Sends s.ns s'.ns) (hinputs : inputs.Alike f.ordered inputs')
    (path : Path) : (inputs.scopeOf s path).Renamed f (inputs'.scopeOf s' path) :=
  have hentries := hinputs.args.mapValues fun _ text => (⟨some text, .override, none⟩ : ArgBinding)
  { args := .of_alike hentries
    alike := fun _ => hentries
    args_eq := fun hordered => by simp only [scopeOf, hinputs.args_eq hordered]
    file := rfl
    ns := h
    privateNs := .none
    remaps := rfl
    admits_remaps := fun _ hpair => absurd hpair List.not_mem_nil
    env := hinputs.env
    machine := rfl }

end IncludeInputs

/-! ## Heads -/

/-- An include reads alike in two scopes, and their namespaces are related. -/
structure Scope.IncludesAlike (f : Renaming) (look : Lookups) (e : Element) (s s' : Scope) :
    Prop where
  ns : f.Sends s.ns s'.ns
  pushed : ∀ text, e.Resolves look s "ns" text → f.Keeps text →
    f.Sends (s.pushNamespace text).ns (s'.pushNamespace text).ns
  directory : s'.directory = s.directory
  reads : e.ReadsAlike look s s'
  readsChild : ∀ child ∈ e.children, child.ReadsAlike look s s'
  passed : e.PassesAll look s →
    Dict.Alike (IncludeInputs.valued s.args) (IncludeInputs.valued s'.args)
  passed_eq : f.ordered → IncludeInputs.valued s'.args = IncludeInputs.valued s.args

theorem Scope.Renamed.includesAlike (hexact : f.exact) (h : s.Renamed f s') (e : Element) :
    s.IncludesAlike f look e s' where
  ns := h.ns
  pushed _ _ hkeeps := h.resolveName hkeeps
  directory := h.directory
  reads := h.readsAlike e
  readsChild child _ := h.readsAlike child
  passed _ := (h.alike hexact).filterMapValues ArgBinding.value
  passed_eq hordered := by rw [h.args_eq hordered]

/-- An include starts with the same. -/
theorem Scope.IncludesAlike.start (h : s.IncludesAlike f look e s') {passesAll : Bool}
    (hall : passesAll = true → e.PassesAll look s) :
    (IncludeInputs.start passesAll s).Alike f.ordered (.start passesAll s') := by
  cases passesAll with
  | false => exact ⟨.refl .empty, fun _ => rfl, rfl, rfl⟩
  | true => exact ⟨h.passed (hall rfl), h.passed_eq, rfl, rfl⟩

namespace IncludeHead

/-- Heads of one include under renamed names. -/
structure Renamed (f : Renaming) (head head' : IncludeHead) : Prop where
  ns : f.Sends head.scope.ns head'.scope.ns
  clear : RosparamCommand.ClearsRenamed f head.clear head'.clear

end IncludeHead

/-- The texts of an include's head give the same file and flags. -/
theorem readHead_lockstep (h : s.IncludesAlike f look e s') (he : e.SameReading e') :
    Lockstep excused Eq
      (fun head head' => head'.path = head.path ∧ head'.passesAll = head.passesAll ∧
        (head.passesAll = true → e.PassesAll look s) ∧
        (e.NamesAre f.Keeps look s ["ns"] → head.Renamed f head'))
      (IncludeHead.read look s e) (IncludeHead.read look s' e') := by
  unfold IncludeHead.read
  rw [he.ask _ _ (by decide)]
  refine .bind_same fun a ha => ?_
  rw [h.reads.text (Attributes.read_of_yields ha), h.reads.flag (Attributes.read_of_yields ha)]
  refine .bind_same fun reference _ => ?_
  refine .bind (enterCleared_lockstep (R := fun a b => f.Sends a.ns b.ns) h.ns h.pushed id h.reads
    (Attributes.read_of_yields ha) he) fun entered entered' _ hentered => ?_
  refine .bind_same fun passesAll hpasses => ?_
  refine .pure ⟨?_, rfl, ?_, fun hkeeps => ⟨(hentered hkeeps).1, (hentered hkeeps).2⟩⟩
  · simp only [Scope.resolvePath, h.directory]
  · rintro rfl
    have hread := Attributes.read_of_yields ha
    exact (Attributes.flag_cases hread (by decide) hpasses).resolve_left (by simp)

end
end LaunchFile
