import LaunchFile.Condition
import LaunchFile.Proofs.Substitution.Naming
import LaunchFile.Walk

/-!
# Proofs/Faults/Basic — the errors of attributes and conditions

Errors in reading an element name no files that are open, and if they have a place already it is
that of the element or of one of its children (`LaunchError.IsPlain`). What is read only resolves
seeds (`LaunchT.IsPlain`). All of this holds of attributes and of conditions.
-/

namespace LaunchFile

/-! ## Plain errors -/

/-- An error that reports no cycle of files. -/
def LaunchError.NoCycle (e : LaunchError) : Prop :=
  ∀ chain, e.cause ≠ .includeCycle chain

/-- An error that names no files that are open, and whose place, if it has one, is that of one of
these elements. -/
structure LaunchError.IsPlain (es : List Element) (e : LaunchError) : Prop where
  noCycle : e.NoCycle
  place : ∀ location, e.location = some location → ∃ x ∈ es, x.location = location

section

variable {es es' : List Element}

namespace LaunchError

/-- An error that was just raised has no place; it is plain unless it reports a cycle. -/
theorem isPlain_ofCause {cause : Cause} (h : ∀ chain, cause ≠ .includeCycle chain) :
    (ofCause cause).IsPlain es :=
  ⟨h, nofun⟩

/-- A place changes nothing about the cause. -/
theorem cause_locate (e : LaunchError) (location : Location) :
    (e.locate location).cause = e.cause := by
  unfold locate
  split <;> rfl

/-- **The first place attached stays.** -/
theorem location_locate (e : LaunchError) (location : Location) :
    (e.locate location).location = some (e.location.getD location) := by
  obtain ⟨cause, _ | place⟩ := e <;> rfl

/-- An error that has a place keeps it. -/
theorem locate_of_location {e : LaunchError} {place : Location} (h : e.location = some place)
    (location : Location) : e.locate location = e := by
  rw [locate, h]

theorem NoCycle.locate {e : LaunchError} (h : e.NoCycle) (location : Location) :
    (e.locate location).NoCycle := fun chain => by
  rw [cause_locate]
  exact h chain

/-- The place of one of the elements makes an error no less plain. -/
theorem IsPlain.locate {e : LaunchError} {x : Element} (h : e.IsPlain es) (hx : x ∈ es) :
    (e.locate x.location).IsPlain es := by
  refine ⟨h.noCycle.locate _, fun location hlocation => ?_⟩
  rw [location_locate] at hlocation
  cases hplace : e.location with
  | none =>
    rw [hplace] at hlocation
    exact ⟨x, hx, Option.some.inj hlocation⟩
  | some place =>
    rw [hplace] at hlocation
    exact h.place _ (hplace.trans hlocation)

/-- With more elements to choose from, an error stays plain. -/
theorem IsPlain.mono {e : LaunchError} (h : e.IsPlain es) (hes : es ⊆ es') : e.IsPlain es' :=
  ⟨h.noCycle, fun location hlocation =>
    (h.place location hlocation).imp fun _ hx => ⟨hes hx.1, hx.2⟩⟩

end LaunchError

/-! ## Results -/

/-- A result whose error is plain. -/
abbrev Result.IsPlain {α : Type} (r : Result α) (es : List Element) : Prop :=
  Except.Faults (LaunchError.IsPlain es) r

namespace Result

variable {α : Type}

/-- A failure is plain just if it reports no cycle. -/
@[simp] theorem isPlain_fail_iff {cause : Cause} :
    IsPlain (fail cause : Result α) es ↔ ∀ chain, cause ≠ .includeCycle chain :=
  ⟨fun h => (h.of_error _ rfl).noCycle, fun h => .error (LaunchError.isPlain_ofCause h)⟩

/-- Errors of another kind become plain causes. -/
theorem isPlain_mapError {ε : Type} {r : Except ε α} {cause : ε → Cause}
    (h : ∀ e chain, cause e ≠ .includeCycle chain) :
    IsPlain (r.mapError fun e => .ofCause (cause e)) es := by
  cases r with
  | error e => exact .error (LaunchError.isPlain_ofCause (h e))
  | ok a => exact .ok a

theorem isPlain_ofSubstitution (r : Except SubstitutionError α) : IsPlain (ofSubstitution r) es :=
  isPlain_mapError (by simp)

theorem isPlain_ofName (name : String) (r : Except NameFault α) : IsPlain (ofName name r) es :=
  isPlain_mapError (by simp)

/-- A result may get the place of one of the elements. -/
theorem IsPlain.located {r : Result α} {x : Element} (h : r.IsPlain es) (hx : x ∈ es) :
    IsPlain (r.located x.location) es := by
  cases r with
  | error e => exact .error ((h.of_error e rfl).locate hx)
  | ok a => exact .ok a

end Result

/-! ## Steps -/

/-- A step of the run that only resolves seeds, and whose error is plain. -/
structure LaunchT.IsPlain {α : Type} (x : LaunchM α) (es : List Element) : Prop where
  keeps : ∀ r : AnonRegistry, Keeps r.Reaches (LaunchError.IsPlain es) x

namespace LaunchT.IsPlain

variable {α β : Type}

/-- A value has no error. -/
theorem pure (a : α) : IsPlain (Pure.pure a : LaunchM α) es :=
  ⟨fun _ => .pure a⟩

theorem throw {e : LaunchError} (h : e.IsPlain es) :
    IsPlain (MonadExcept.throw e : LaunchM α) es :=
  ⟨fun _ => .throw h⟩

/-- A plain result is a plain step. -/
theorem result {r : Result α} (h : r.IsPlain es) : IsPlain (liftM r : LaunchM α) es :=
  ⟨fun _ => .result h⟩

/-- **Steps in sequence are plain if each of them is.** -/
theorem bind {x : LaunchM α} {f : α → LaunchM β} (h : x.IsPlain es)
    (hf : ∀ a, (f a).IsPlain es) : IsPlain (x >>= f) es :=
  ⟨fun r => .bind (h.keeps r) fun a => (hf a).keeps r⟩

theorem mono {x : LaunchM α} (h : x.IsPlain es) (hes : es ⊆ es') : x.IsPlain es' :=
  ⟨fun r => (h.keeps r).mono fun _ he => he.mono hes⟩

/-- A step may get the place of one of the elements. -/
theorem located {x : LaunchM α} {e : Element} (h : x.IsPlain es) (he : e ∈ es) :
    IsPlain (LaunchT.located e.location x) es :=
  ⟨fun r => (h.keeps r).adapt _ fun _ herror => herror.locate he⟩

/-- Errors of resolution have no place yet. -/
theorem ofResolve {x : ResolveM α} (h : ∀ r, Segment.KeepsNames r x) :
    IsPlain (LaunchT.ofResolve x) es :=
  ⟨fun r => (h r).adapt _ fun _ _ => LaunchError.isPlain_ofCause (by simp)⟩

end LaunchT.IsPlain

/-! ## Attributes -/

/-- A missing attribute is reported at the place of the element that lacks it. -/
theorem isPlain_required (e : Element) (name : String) : (e.required name).IsPlain [e] := by
  unfold Element.required
  split
  · exact .ok _
  · exact Result.IsPlain.located (by simp) List.mem_cons_self

/-- A word that is no boolean is reported without a place. -/
theorem isPlain_readBoolean (attr value : String) : (readBoolean attr value).IsPlain es := by
  unfold readBoolean
  split <;> simp

namespace Attributes

theorem isPlain_split (text : String) : (split text).IsPlain es :=
  Result.isPlain_ofSubstitution _

/-- **Reading attributes stops at the first that is missing or malformed**, and either is plain. -/
theorem isPlain_read (e : Element) : ∀ wanted : List Wanted, (read e wanted).IsPlain [e]
  | [] => .ok _
  | .required name :: rest =>
    (isPlain_required e name).bind fun text => (isPlain_split text).bind fun _ =>
      (isPlain_read e rest).bind fun _ => .ok _
  | .optional name :: rest => by
    rw [read_optional]
    split
    · exact isPlain_read e rest
    · exact (isPlain_split _).bind fun _ => (isPlain_read e rest).bind fun _ => .ok _

variable (a : Attributes) (look : Lookups) (scope : Scope) (name : String)

theorem isPlain_ask (e : Element) (wanted : List Wanted) : (ask look e wanted).IsPlain [e] := by
  rw [ask_eq]
  exact .result (isPlain_read e wanted)

/-- Resolving a row of segments resolves seeds and may fail in any of them. -/
theorem isPlain_textOf (segments : List Segment) : (textOf look scope segments).IsPlain es :=
  .ofResolve fun _ => Segment.keeps_resolveAll scope look segments

theorem isPlain_text : (a.text look scope name).IsPlain es :=
  isPlain_textOf look scope _

theorem isPlain_text? : (a.text? look scope name).IsPlain es := by
  unfold text?
  split
  · exact .pure _
  · rename_i segments _
    exact .bind (isPlain_textOf look scope segments) fun _ => .pure _

/-- A flag is at fault in its text, or as a boolean. -/
theorem isPlain_flag : (a.flag look scope name).IsPlain es := by
  refine .bind (a.isPlain_text? look scope name) fun found => ?_
  cases found with
  | none => exact .pure _
  | some text => exact .result (isPlain_readBoolean name text)

end Attributes
end

/-! ## Conditions -/

section

variable (w : World) (look : Lookups) (scope : Scope) (e : Element)

theorem isPlain_conditionValue (name text : String) :
    (Element.conditionValue look scope name text).IsPlain [e] := by
  unfold Element.conditionValue
  refine .bind (.ofResolve fun _ => Segment.keeps_evaluate scope look text) fun resolved => ?_
  exact .result (isPlain_readBoolean name resolved)

/-- A condition is at fault at the place of its element. -/
theorem isPlain_isActive : (e.isActive look scope).IsPlain [e] := by
  refine LaunchT.IsPlain.located ?_ List.mem_cons_self
  split
  · exact .pure _
  · exact isPlain_conditionValue look scope e _ _
  · exact .bind (isPlain_conditionValue look scope e _ _) fun _ => .pure _
  · exact .throw (LaunchError.isPlain_ofCause fun _ h => nomatch h)

/-- An element that its parent does not allow is refused without a place. -/
theorem isPlain_unknown (parent : String) : (w.unknown parent e).IsPlain [e] := by
  unfold World.unknown
  split <;> simp

/-- Whether an element takes part is decided without looking at what is inside of it. -/
theorem isPlain_activeTag (parent : String) : (e.activeTag w parent scope).IsPlain [e] := by
  unfold Element.activeTag
  split
  · exact .bind (.result (isPlain_unknown w e parent)) fun _ => .pure _
  · refine .bind (isPlain_isActive w.look scope e) fun active => ?_
    cases active <;> exact .pure _

end
end LaunchFile
