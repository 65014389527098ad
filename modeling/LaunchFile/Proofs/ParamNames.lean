import LaunchFile.Proofs.Entering
import LaunchFile.Proofs.GraphName.Param

/-!
# Proofs/ParamNames — what `<param>` and `<rosparam>` name

A `<rosparam>` without a namespace of its own and a `<param>` accept the same names, also with
blanks around them. A `<param>` drops the blanks; a `<rosparam>` looks for a slash or a tilde at the
very beginning and, when there is none, joins the name with its blanks. So the two lead to one
parameter just where the name begins with such a character or has no blanks around it
(`namedTarget_eq_iff`).
-/

namespace LaunchFile

/-- The settings of a `<param>` are the leaves of a value, under the name that it resolves to. -/
theorem exists_of_readParam {w : World} {scope : Scope} {e : Element} {params : List ParamSpec}
    (h : Yields (readParam w scope e) params) :
    ∃ name value, e.Resolves w.look scope "name" name ∧ GraphName.check false name = .ok () ∧
      params = ParamSpec.ofValue (scope.resolveParamName name) value e.location := by
  rw [readParam] at h
  obtain ⟨⟨target, value⟩, hsetting, h⟩ := h.of_bind
  obtain ⟨name, hname, hcheck, rfl⟩ := exists_of_readSetting hsetting
  exact ⟨name, value, hname, hcheck, h.eq_of_pure.symm⟩

namespace RosparamCommand

variable {look : Lookups} {scope : Scope} {e : Element} {s : String}

/-- The parameter that a command without a namespace of its own is about, given its name. -/
def namedTarget (scope : Scope) (param : String) : String :=
  if Scope.isAnchored param.toList then scope.resolveName param
  else GraphName.join scope.paramNs param

/-- A name that begins with a slash or a tilde, or has no blanks around it. -/
def IsTidy (param : String) : Prop :=
  Scope.isAnchored param.toList = true ∨ Text.trim param = param

/-! ## One name -/

theorem targetOf_of_check (h : GraphName.check false s = .ok ()) :
    targetOf scope scope.paramNs (some s) = .ok (namedTarget scope s) := by
  rw [targetOf, h]
  rfl

theorem check_of_targetOf {target : String}
    (h : targetOf scope scope.paramNs (some s) = .ok target) :
    GraphName.check false s = .ok () ∧ target = namedTarget scope s := by
  obtain ⟨_, hcheck, _⟩ := Except.bind_eq_ok h
  have hcheck := Result.eq_ok_of_ofName hcheck
  rw [targetOf_of_check hcheck] at h
  exact ⟨hcheck, (Except.ok.inj h).symm⟩

theorem namedTarget_of_isTidy (h : IsTidy s) (scope : Scope) :
    namedTarget scope s = scope.resolveParamName s := by
  by_cases hanchored : Scope.isAnchored s.toList = true
  · have htrimmed : Scope.isAnchored (Text.trimChars s.toList) = true := by
      unfold Scope.isAnchored at hanchored
      split at hanchored
      · rename_i hslash
        obtain ⟨rest, hrest⟩ := GraphName.exists_trimChars_cons (c := '/') (by decide) _
        rw [hslash, hrest]
        rfl
      · rename_i htilde
        obtain ⟨rest, hrest⟩ := GraphName.exists_trimChars_cons (c := '~') (by decide) _
        rw [htilde, hrest]
        rfl
      · cases hanchored
    rw [namedTarget, if_pos hanchored, Scope.resolveParamName_of_isAnchored htrimmed]
  · have htrim : Text.trimChars s.toList = s.toList := by
      have := congrArg String.toList (h.resolve_left hanchored)
      rwa [Text.trim, String.toList_ofList] at this
    rw [namedTarget, if_neg hanchored]
    simp only [Scope.resolveParamName, htrim, hanchored, Bool.false_eq_true, if_false,
      String.ofList_toList]

/-- **The two lead to one parameter** just where the name is tidy: otherwise a blank stands in a
segment of the one and in none of the other. -/
theorem namedTarget_eq_iff (h : GraphName.check false s = .ok ()) (scope : Scope) :
    namedTarget scope s = scope.resolveParamName s ↔ IsTidy s := by
  refine ⟨fun heq => ?_, fun htidy => namedTarget_of_isTidy htidy scope⟩
  by_contra huntidy
  obtain ⟨hanchored, htrim⟩ := not_or.1 huntidy
  have hchars : Text.trimChars s.toList ≠ s.toList := fun hsame =>
    htrim (by rw [Text.trim, hsame, String.ofList_toList])
  obtain ⟨c, hc, hblank⟩ := GraphName.exists_isBlank_of_trimChars_ne hchars
  obtain ⟨p, hp, hcp⟩ : ∃ p ∈ GraphName.segments s.toList, c ∈ p :=
    (GraphName.eq_slash_or_mem_segments hc).resolve_left (by rintro rfl; cases hblank)
  obtain ⟨base, hbase, hsegments⟩ := Scope.segmentsOf_resolveParamName scope s
  rw [← heq, namedTarget, if_neg hanchored, GraphName.segmentsOf_join] at hsegments
  have hmem : p ∈ GraphName.segments (GraphName.dropTilde (Text.trimChars s.toList)) := by
    rcases hbase with rfl | rfl
    · rw [List.nil_append] at hsegments
      exact hsegments ▸ List.mem_append_right _ hp
    · exact List.append_cancel_left hsegments ▸ hp
  rw [GraphName.isBlank_of_isIdentifier (GraphName.isIdentifier_of_check h p hmem) c hcp] at hblank
  cases hblank

/-! ## The elements -/

/-- Text that is loaded sets parameters under the target. -/
theorem exists_of_mem_settings {target text : String} {isNamed : Bool} {location : Location}
    {params : List ParamSpec} (h : settings target isNamed text location = .ok params)
    {spec : ParamSpec} (hspec : spec ∈ params) :
    ∃ value, spec ∈ ParamSpec.ofValue target value location := by
  obtain ⟨value, _, h⟩ := Except.bind_eq_ok h
  split at h
  · cases h
  · split at h
    · cases h
      cases hspec
    · cases h
      exact ⟨value, hspec⟩

/-- What a command is about, as the element says: its `param`, in the namespace of relative
parameters. -/
theorem exists_of_read {command : RosparamCommand} {params : List ParamSpec}
    (h : Yields (read look scope e) (command, params)) (hns : e.attr? "ns" = none) :
    ∃ param, (e.attr? "param" = none ∧ param = none ∨
        ∃ s, e.Resolves look scope "param" s ∧ param = some s) ∧
      targetOf scope scope.paramNs param = .ok command.ns ∧
      ∀ spec ∈ params, ∃ value, spec ∈ ParamSpec.ofValue command.ns value e.location := by
  obtain ⟨a, hread, h⟩ := h.of_bind
  obtain ⟨given, _, h⟩ := h.of_bind
  obtain ⟨op, _, h⟩ := h.of_bind
  obtain ⟨ns, hfound, h⟩ := h.of_bind
  obtain ⟨base, hbase, h⟩ := h.of_bind
  obtain ⟨param, hparam, h⟩ := h.of_bind
  obtain ⟨target, htarget, h⟩ := h.of_bind
  obtain ⟨reference, _, hrest⟩ := h.of_bind
  obtain rfl : ns = none := by
    rcases Attributes.text?_cases (Attributes.read_of_yields hread) (by decide) hfound with
      ⟨_, hnone⟩ | ⟨_, ⟨raw, hraw, _⟩, _⟩
    · exact hnone
    · rw [hns] at hraw
      cases hraw
  obtain rfl : scope.paramNs = base := Except.ok.inj hbase.eq_ok
  have hcases := Attributes.text?_cases (Attributes.read_of_yields hread) (by decide) hparam
  have hcommand : command.ns = target ∧
      ∀ spec ∈ params, ∃ value, spec ∈ ParamSpec.ofValue target value e.location := by
    cases op with
    | load =>
      cases reference with
      | some _ =>
        cases hrest.eq_of_pure
        exact ⟨rfl, nofun⟩
      | none =>
        obtain ⟨text, _, hloaded⟩ := hrest.of_bind
        obtain ⟨found, hsettings, hfound⟩ := hloaded.of_bind
        cases hfound.eq_of_pure
        exact ⟨rfl, fun spec hspec => exists_of_mem_settings hsettings.eq_ok hspec⟩
    | dump =>
      cases reference with
      | some _ =>
        cases hrest.eq_of_pure
        exact ⟨rfl, nofun⟩
      | none => cases hrest.eq_ok
    | delete =>
      cases param with
      | none => cases hrest.eq_ok
      | some _ =>
        cases reference with
        | some _ => cases hrest.eq_ok
        | none =>
          cases hrest.eq_of_pure
          exact ⟨rfl, nofun⟩
  rw [hcommand.1]
  exact ⟨param, hcases, htarget.eq_ok, hcommand.2⟩

/-- **A `<rosparam>` names parameters as a `<param>` does.** A name that both accept stands for
itself in every scope. A `<param>` sets what its name resolves to, and a command without a namespace
of its own is about the same parameter if the name is tidy, and not otherwise. -/
theorem names_as_param (w : World) (scope : Scope) :
    (∀ e command params, Yields (read w.look scope e) (command, params) →
      e.attr? "ns" = none → e.attr? "param" ≠ none →
      ∃ s, e.Resolves w.look scope "param" s ∧ GraphName.check false s = .ok () ∧
        command.ns = namedTarget scope s ∧
        (command.ns = scope.resolveParamName s ↔ IsTidy s) ∧
        ∀ spec ∈ params, ∃ value, spec ∈ ParamSpec.ofValue command.ns value e.location) ∧
    (∀ e params, Yields (readParam w scope e) params →
      ∃ s value, e.Resolves w.look scope "name" s ∧ GraphName.check false s = .ok () ∧
        params = ParamSpec.ofValue (scope.resolveParamName s) value e.location) ∧
    ∀ s, GraphName.check false s = .ok () → Segment.evaluate scope w.look s = pure s := by
  refine ⟨fun e command params h hns hparam => ?_, fun e params h => exists_of_readParam h,
    fun s hs => Segment.evaluate_of_isPlain (GraphName.isPlain_of_check hs) _ _⟩
  obtain ⟨param, hcases, htarget, hparams⟩ := exists_of_read h hns
  rcases hcases with ⟨hnone, _⟩ | ⟨s, hs, rfl⟩
  · exact absurd hnone hparam
  · obtain ⟨hcheck, hsame⟩ := check_of_targetOf htarget
    exact ⟨s, hs, hcheck, hsame, hsame ▸ namedTarget_eq_iff hcheck scope, hparams⟩

/-- A blank before a name without slash or tilde goes into the name of the one, and not of the
other. -/
theorem names_as_param_blank :
    let w : World := ⟨⟨fun _ => none, fun _ => none⟩, MemoryFiles.toFiles [], true, "noetic"⟩
    GraphName.check false " x" = .ok () ∧
      ((outcome (read w.look Scope.root
        (.mk "rosparam" (.ofPairs [("command", "delete"), ("param", " x")]) [] none ⟨none, 1, 1⟩))
        AnonRegistry.empty).1.toOption.map fun found => found.1.ns) = some "/ x" ∧
      ((outcome (readParam w Scope.root
        (.mk "param" (.ofPairs [("name", " x"), ("value", "1")]) [] none ⟨none, 1, 1⟩))
        AnonRegistry.empty).1.toOption.map fun params => params.map ParamSpec.name) =
          some ["/x"] ∧
      Scope.root.resolveParamName " x" = "/x" := by
  refine ⟨rfl, ?_, ?_, ?_⟩ <;> decide +kernel

end RosparamCommand
end LaunchFile
