import LaunchFile.Proofs.Extending
import LaunchFile.Proofs.Run.Strict
import LaunchFile.Proofs.Walk.Rebinding

/-!
# Proofs/Run/Defaults — an argument that is given its own default

A run to which an argument is given from outside does what the run without it does, if the first
element of the file is the `<arg>` of that argument and its default is the text that is given. From
that element on the two are in scopes in which arguments have the same values, so that the second
run follows the first (`walkRoot_given`) and both end in the same model, up to where the values of
arguments came from.
-/

namespace LaunchFile

open Moment (InRun)

section

variable {w : World} {scope : Scope} {root e : Element} {s : WalkState} {registry : AnonRegistry}

/-! ## The first element -/

/-- An `<arg>` with a literal name and a default, and with no condition. -/
structure Element.IsDefaultArg (e : Element) (look : Lookups) (name default : String) : Prop where
  tag : e.tag = "arg"
  unconditional : e.attr? "if" = none ∧ e.attr? "unless" = none
  name : ∃ raw, e.attr? "name" = some raw ∧ ∀ scope, Segment.evaluate scope look raw = pure name
  default : e.attr? "default" = some default

/-- What is given from outside for an argument. -/
def ArgBinding.given (text : String) : ArgBinding :=
  ⟨some text, .override, none⟩

variable {name default text : String}

/-- Where there is a default and no value, the default counts unless the argument is given from
outside. -/
theorem argValue_of_default {look : Lookups} {a : Attributes} (hvalue : a.contains "value" = false)
    (hdefault : a.contains "default" = true) (scope : Scope) (name : String) :
    argValue look scope a name =
      if scope.isOverridden name then pure (none, .default)
      else do return (← a.text? look scope "default", .default) := by
  rw [argValue, if_neg (ne_true_of_eq_false hvalue), if_pos hdefault]

theorem attr?_value_of_checkExclusive (h : checkExclusive e = .ok ())
    (hdefault : e.attr? "default" = some default) : e.attr? "value" = none := by
  rw [checkExclusive, hdefault] at h
  cases hvalue : e.attr? "value" with
  | none => rfl
  | some value =>
    rw [hvalue] at h
    cases h

/-- A default that is resolved without a trace where the argument is not given, and passed over
where it is. -/
theorem argValue_given {look : Lookups} {a : Attributes} {r : AnonRegistry}
    (he : e.IsDefaultArg look name default) (hexclusive : checkExclusive e = .ok ())
    (hread : Attributes.read e [.optional "value", .optional "default"] = .ok a)
    (hnew : scope.args.get? name = none)
    (hresolved : outcome (Segment.evaluate scope look default) r = (.ok text, r)) :
    Follows (fun given given' => given = (some text, .default) ∧ given' = (none, .default))
      (argValue look scope a name) (argValue look (scope.setArg name (.given text)) a name) r := by
  have hdefault : a.contains "default" = true := by
    rw [Attributes.contains_of_read hread (by decide), Element.hasAttr, Dict.contains]
    exact congrArg Option.isSome he.default
  have hvalue : a.contains "value" = false := by
    rw [Attributes.contains_of_read hread (by decide), Element.hasAttr, Dict.contains,
      Option.isSome_eq_false_iff, Option.isNone_iff_eq_none]
    exact attr?_value_of_checkExclusive hexclusive he.default
  have hopen : scope.isOverridden name ≠ true := by
    rw [Scope.isOverridden, hnew]
    exact Bool.false_ne_true
  have hgiven : (scope.setArg name (.given text)).isOverridden name = true := by
    rw [Scope.isOverridden, Scope.setArg, Dict.get?_insert_self]
    rfl
  rw [argValue_of_default hvalue hdefault, argValue_of_default hvalue hdefault, if_neg hopen,
    if_pos hgiven]
  intro given t hok
  rw [outcome_bind_ok (Attributes.text?_of_evaluate hread hdefault he.default hresolved)] at hok
  cases hok
  exact ⟨_, rfl, rfl, rfl⟩

/-- **The `<arg>` of an argument that is given its own default from outside.** -/
theorem readArg_given {look : Lookups} {r : AnonRegistry} (he : e.IsDefaultArg look name default)
    (hnew : scope.args.get? name = none)
    (hresolved : outcome (Segment.evaluate scope look default) r = (.ok text, r)) :
    Follows Scope.Rebound (readArg look scope e)
      (readArg look (scope.setArg name (.given text)) e) r := by
  have hextends := Scope.Extends.setArg hnew (.given text)
  unfold readArg
  refine .bind_same fun values _ hvalues => ?_
  refine .bind_same fun _ _ hchecked => ?_
  refine .bind_same fun others _ hothers => ?_
  rw [Attributes.ask_eq] at hvalues hothers
  obtain ⟨hread, rfl⟩ := eq_ok_of_outcome hvalues
  obtain ⟨hexclusive, rfl⟩ := eq_ok_of_outcome hchecked
  obtain ⟨hother, rfl⟩ := eq_ok_of_outcome hothers
  have hname := Attributes.text_of_literal hother (.head _) he.name
  rw [hname, hname, pure_bind, pure_bind]
  refine .bind (argValue_given he hexclusive hread hnew hresolved) fun _ _ t _ _ hgiven => ?_
  obtain ⟨rfl, rfl⟩ := hgiven
  refine .bind_eq (hextends.text? others "doc" t) fun doc u _ => .result fun behind hbind => ?_
  have hbehind : scope.setArg name ⟨some text, .default, doc⟩ = behind := by
    rw [Scope.bind, hnew] at hbind
    exact Except.ok.inj hbind
  subst hbehind
  have hkept : Scope.rebind? (.given text) ⟨none, .default, doc⟩ =
      some ⟨some text, .override, none <|> doc⟩ := rfl
  refine ⟨scope.setArg name ⟨some text, .override, none <|> doc⟩, ?_, ?_⟩
  · rw [Scope.bind, Scope.setArg, Dict.get?_insert_self]
    dsimp only
    rw [hkept]
    exact congrArg (fun args => Except.ok { scope with args }) (Dict.insert_insert ..)
  · exact (Scope.Rebound.refl scope).setArg name (.outside _)

theorem Element.IsDefaultArg.activeTag (he : e.IsDefaultArg w.look name default) (scope : Scope) :
    e.activeTag w "launch" scope = pure (some .arg) := by
  have hactive : e.isActive w.look scope = pure true := by
    rw [isActive, he.unconditional.1, he.unconditional.2]
    rfl
  rw [Element.activeTag, he.tag, hactive]
  rfl

theorem walkElement_given {enter : EnterFile} (he : e.IsDefaultArg w.look name default)
    (hnew : scope.args.get? name = none)
    (hresolved : outcome (Segment.evaluate scope w.look default) s.registry =
      (.ok text, s.registry)) :
    Follows Scope.Rebound (walkElement w enter "launch" scope e)
      (walkElement w enter "launch" (scope.setArg name (.given text)) e) s := by
  rw [walkElement_eq, walkElement_eq, he.activeTag, he.activeTag]
  refine .adapt (.bind_same fun found t hfound => ?_)
  cases hfound
  exact .ofLaunch (readArg_given he hnew hresolved)

/-! ## Runs -/

theorem Element.inside_setArg (e : Element) (scope : Scope) (name : String)
    (binding : ArgBinding) :
    e.inside (scope.setArg name binding) = (e.inside scope).setArg name binding := by
  rw [inside, inside]
  split <;> rfl

/-- A root that is entered is entered with one argument more, too. -/
theorem enterRoot_given (hnew : scope.args.get? name = none) (binding : ArgBinding) :
    Follows (fun found found' => found' = found.map (·.setArg name binding))
      (WalkT.enterRoot w scope root) (WalkT.enterRoot w (scope.setArg name binding) root) s := by
  refine .bind_same fun _ t _ => ?_
  have hextends := Scope.Extends.setArg hnew binding
  refine .bind_eq (.ofLaunch (hextends.isActive root _)) fun active _ _ => ?_
  cases active with
  | true => exact .pure (congrArg some (root.inside_setArg scope name binding))
  | false => exact .pure rfl

theorem tag_of_enterRoot {inner : Scope} (h : Yields (WalkT.enterRoot w scope root) (some inner)) :
    root.tag = "launch" := by
  obtain ⟨_, hcheck, _⟩ := h.of_bind
  have hok := hcheck.eq_ok
  rw [Element.checkRoot] at hok
  split at hok
  · rename_i htag
    exact eq_of_beq htag
  · cases hok

/-- A tree, walked with and without the argument of its first element given. -/
theorem walkRoot_given {first : Element} {rest : List Element} {inner : Scope} {t : WalkState}
    {r : AnonRegistry}
    (hquiet : ∀ m, InRun w scope root registry (w.files.size + 1) m → m.MakesNoName w)
    (hchildren : root.children = first :: rest) (he : first.IsDefaultArg w.look name default)
    (hnew : scope.args.get? name = none)
    (hentered : outcome (WalkT.enterRoot w scope root) (.start registry scope) =
      (.ok (some inner), t))
    (hresolved : outcome (Segment.evaluate inner w.look default) t.registry = (.ok text, r)) :
    Follows Scope.Rebound (walkRoot w (walkFile w (w.files.size + 1)) scope root)
      (walkRoot w (walkFile w (w.files.size + 1)) (scope.setArg name (.given text)) root)
      (.start registry scope) := by
  have hm : InRun w scope root registry (w.files.size + 1)
      (.children "launch" inner (first :: rest) t) := by
    rw [← tag_of_enterRoot ⟨_, _, hentered⟩, ← hchildren]
    exact .start hentered
  have hinner : inner.args.get? name = none := by
    rw [eq_inside_of_enterRoot ⟨_, _, hentered⟩, Scope.args_inside, hnew]
  have htrace := hquiet _ hm he.tag default he.default t.registry
  rw [hresolved] at htrace
  subst htrace
  refine .bind (enterRoot_given hnew (.given text)) fun found found' u hfound _ hsame => ?_
  rw [hentered] at hfound
  cases hfound
  subst hsame
  rw [Option.map_some, tag_of_enterRoot ⟨_, _, hentered⟩, hchildren]
  dsimp only
  rw [walkChildren, walkChildren]
  refine .bind (walkElement_given he hinner hresolved) fun behind behind' v hok _ hbehind => ?_
  exact walkChildren_follows hquiet rest (hm.within (.past hok)) hbehind

/-! ## Models -/

/-- Two models that differ at most in where the values of arguments came from and in how arguments
are described. -/
structure Model.SameButOrigins (m m' : Model) : Prop where
  nodes : m'.nodes = m.nodes
  parameters : m'.parameters = m.parameters
  commands : m'.commands = m.commands
  machines : m'.machines = m.machines
  args : m'.args.map (fun entry => (entry.1, entry.2.value)) =
    m.args.map fun entry => (entry.1, entry.2.value)

namespace Model

/-- What is recorded of arguments has their values. -/
theorem related_recordArgs {args args' : Dict ArgBinding}
    (h : Dict.Related ArgBinding.Overridden args args') (m m' : Model)
    (hm : Dict.Related (fun a a' : ArgValue => a'.value = a.value) m.args m'.args) :
    Dict.Related (fun a a' : ArgValue => a'.value = a.value) (m.recordArgs args).args
      (m'.recordArgs args').args := by
  rw [Dict.Related] at h
  rw [recordArgs, recordArgs]
  generalize args.entries = entries, args'.entries = entries' at h
  induction h generalizing m m' with
  | nil => exact hm
  | @cons entry entry' rest rest' hentry _ ih =>
    obtain ⟨hname, hbinding⟩ := hentry
    obtain ⟨name, binding⟩ := entry
    obtain ⟨_, binding'⟩ := entry'
    obtain rfl := hname
    refine ih { m with args := m.args.insert _ _ } { m' with args := m'.args.insert _ _ } ?_
    exact hm.insert _ hbinding.value

theorem sameButOrigins_ofLog (log : Log) {args args' : Dict ArgBinding}
    (h : Dict.Related ArgBinding.Overridden args args') :
    (ofLog log args).SameButOrigins (ofLog log args') where
  nodes := rfl
  parameters := rfl
  commands := rfl
  machines := rfl
  args :=
    let m : Model := ⟨log.nodes, log.params.foldl withParam [], log.commands, log.machines, .empty⟩
    (related_recordArgs h m m .nil).map_eq fun _ _ hvalue => hvalue

end Model

/-- **An argument that is given its own default.** If the first element of a text is an `<arg>` with
no condition whose default resolves to `text`, and the run of the text gives a model, then the run
to which `text` is given for this argument gives the same model, up to where the values of arguments
came from. No default of the text itself may make up a name; its other names are of no account, and
so is all that is made up in included files. -/
theorem interpretText_override_default (w : World) (file : Option Path) (source : String)
    (root first : Element) (rest : List Element) (name default text : String)
    (registry registry' r : AnonRegistry) (inner : Scope) (s : WalkState) (model : Model)
    (hparse : Element.parse source file = .ok root) (hchildren : root.children = first :: rest)
    (hfirst : first.IsDefaultArg w.look name default)
    (hquiet : ∀ m, InRun w (topScope file []) root registry (w.files.size + 1) m →
      m.MakesNoName w)
    (hentered : outcome (WalkT.enterRoot w (topScope file []) root)
      (.start registry (topScope file [])) = (.ok (some inner), s))
    (hresolved : outcome (Segment.evaluate inner w.look default) s.registry = (.ok text, r))
    (hmodel : outcome (interpretText w file [] source) registry = (.ok model, registry')) :
    ∃ model', outcome (interpretText w file [(name, text)] source) registry =
      (.ok model', registry') ∧ model.SameButOrigins model' := by
  rw [interpretText_of_ok hparse, interpretTree, outcome_interpretWith] at hmodel ⊢
  have hwalk := walkRoot_given hquiet hchildren hfirst rfl hentered hresolved
  obtain ⟨hresult, rfl⟩ := Prod.ext_iff.1 hmodel
  obtain ⟨behind, hbehind, rfl⟩ := Except.map_eq_ok hresult
  obtain ⟨behind', hbehind', hrebound⟩ := hwalk behind _ (Prod.ext hbehind rfl)
  refine ⟨Model.ofLog _ behind'.args, ?_, Model.sameButOrigins_ofLog _ hrebound.bound⟩
  exact congrArg (fun walk => (walk.1.map fun behind => Model.ofLog walk.2.log behind.args,
    walk.2.registry)) hbehind'

/-- The first argument of a text is said again, and a parameter takes it up. -/
theorem interpretText_override_default_side :
    let w : World := ⟨⟨fun _ => none, fun _ => none⟩, MemoryFiles.toFiles [], true, "noetic"⟩
    let source := "<launch><arg name='side' default='left'/><arg name='side' value='left'/>" ++
      "<param name='side' value='$(arg side)'/></launch>"
    let origins (m : Model) := m.args.map fun entry => (entry.1, entry.2.origin)
    ∃ model model' registry,
      outcome (interpretText w none [] source) .empty = (.ok model, registry) ∧
      outcome (interpretText w none [("side", "left")] source) .empty = (.ok model', registry) ∧
      origins model = [("side", .default)] ∧ origins model' = [("side", .override)] ∧
      model.SameButOrigins model' := by
  intro w source origins
  have hrun : ((Element.parse source none).toOption.any fun root =>
      root.tag == "launch" && root.attrs == .empty && root.all Element.hasDirectDefault &&
      (root.children.head?.any fun e =>
        e.tag == "arg" && e.attrs == .ofPairs [("name", "side"), ("default", "left")]) &&
      ((outcome (interpretTree w (topScope none []) root) .empty).1.toOption.any fun model =>
        origins model == [("side", .default)]) &&
      ((outcome (interpretTree w (topScope none [("side", "left")]) root) .empty).1.toOption.any
        fun model => origins model == [("side", .override)])) = true := by
    decide +kernel
  obtain ⟨root, hsome, hfacts⟩ := (Option.any_eq_true ..).1 hrun
  simp only [Bool.and_eq_true, beq_iff_eq, Option.any_eq_true] at hfacts
  obtain ⟨⟨⟨⟨⟨htag, hattrs⟩, hdirect⟩, first, hhead, hfirst, hdefault⟩, model, hmodel, horigins⟩,
    given, hgiven, horigins'⟩ := hfacts
  obtain ⟨rest, hchildren⟩ := List.head?_eq_some_iff.1 hhead
  have hparse := Except.eq_ok_of_toOption hsome
  have hdefaultArg : first.IsDefaultArg w.look "side" "left" :=
    { tag := hfirst
      unconditional := by rw [Element.attr?, Element.attr?, hdefault]; decide
      name := ⟨"side", by rw [Element.attr?, hdefault]; decide,
        fun scope => Segment.evaluate_of_isPlain (by decide) scope w.look⟩
      default := by rw [Element.attr?, hdefault]; decide }
  have hentered : outcome (WalkT.enterRoot w (topScope none []) root)
      (.start .empty (topScope none [])) =
        (.ok (some (topScope none [])), .start .empty (topScope none [])) := by
    obtain ⟨tag, attrs, children, contents, location⟩ := root
    obtain rfl : tag = "launch" := htag
    obtain rfl : attrs = .empty := hattrs
    rfl
  have hresolved : outcome (Segment.evaluate (topScope none []) w.look "left") .empty =
      (.ok "left", .empty) := by
    rw [Segment.evaluate_of_isPlain (by decide)]
    rfl
  have hok : outcome (interpretText w none [] source) .empty =
      (.ok model, (outcome (interpretTree w (topScope none []) root) .empty).2) := by
    rw [interpretText_of_ok hparse]
    exact Prod.ext (Except.eq_ok_of_toOption hmodel) rfl
  obtain ⟨model', hok', hsame⟩ := interpretText_override_default w none source root first rest
    "side" "left" "left" .empty _ .empty (topScope none []) _ model hparse hchildren hdefaultArg
    (fun _ hm => hm.makesNoName hdirect) hentered hresolved hok
  rw [← interpretText_of_ok hparse, hok'] at hgiven
  cases hgiven
  exact ⟨model, given, _, hok, hok', horigins, horigins', hsame⟩

end
end LaunchFile
