import LaunchFile.Node
import LaunchFile.Proofs.Answers.Basic
import LaunchFile.Rosparam
import LaunchFile.Walk

/-!
# Proofs/Answers/Read — elements that are read with other answers

All that is read of an element comes of texts and of a scope, so that an element is read to the same
whoever answers, if the answers are the same. Of the world only those who answer may be others
(`World.answeredBy`); files and options are not asked for.
-/

namespace LaunchFile

/-- The same world with someone else to answer. -/
def World.answeredBy {L L' : Type} (w : World L) (look : L') : World L' :=
  { w with look }

section

variable {L L' σ τ : Type} [Answers L σ] [Answers L' τ] {P : σ → τ → Prop} {Q : σ → Prop}
  {look : L} {look' : L'} {scope : Scope} {e : Element} {a : Attributes}

/-! ## Attributes -/

namespace Attributes

/-- The attributes that an element is read for are split into the same segments. The induction is on
what is wanted; a text is asked for only where the attribute is there. -/
theorem ask_mirrors (h : Answers.Mirrors P Q look look') : ∀ wanted : List Wanted,
    Mirrors P Q (ask look e wanted) (ask look' e wanted)
  | [] => .pure []
  | .required _ :: rest =>
    .bind (.result _) fun text => .bind (.adapt _ (h.parse text)) fun _ =>
      .bind (ask_mirrors h rest) fun _ => .pure _
  | .optional name :: rest => by
    unfold ask collect
    cases e.attr? name with
    | none => exact ask_mirrors h rest
    | some text =>
      exact .bind (.adapt _ (h.parse text)) fun _ => .bind (ask_mirrors h rest) fun _ => .pure _

/-- A row of segments has the same text as the value of an attribute. -/
theorem textOf_mirrors (h : Answers.Mirrors P Q look look') (segments : List Segment) :
    Mirrors P Q (textOf look scope segments) (textOf look' scope segments) :=
  .adapt _ (Segment.resolveAll_mirrors h segments)

/-- An attribute has the same text, also where it is not there. -/
theorem text_mirrors (h : Answers.Mirrors P Q look look') (name : String) :
    Mirrors P Q (a.text look scope name) (a.text look' scope name) :=
  textOf_mirrors h _

/-- An attribute that need not be there has the same text. -/
theorem text?_mirrors (h : Answers.Mirrors P Q look look') (name : String) :
    Mirrors P Q (a.text? look scope name) (a.text? look' scope name) := by
  unfold text?
  cases a.get? name with
  | none => exact .pure none
  | some segments => exact .bind (textOf_mirrors h segments) fun _ => .pure _

/-- An attribute is the same boolean. -/
theorem flag_mirrors (h : Answers.Mirrors P Q look look') (name : String) :
    Mirrors P Q (a.flag look scope name) (a.flag look' scope name) := by
  refine .bind (text?_mirrors h name) fun found => ?_
  cases found with
  | none => exact .pure false
  | some text => exact .result _

end Attributes

open Attributes

/-! ## Conditions -/

/-- A condition's text is the same boolean, or is refused as one. -/
theorem Element.conditionValue_mirrors (h : Answers.Mirrors P Q look look') (name text : String) :
    Mirrors P Q (conditionValue look scope name text) (conditionValue look' scope name text) :=
  .bind (.adapt _ (Segment.evaluate_mirrors h text)) fun _ => .result _

/-- The same elements take part. -/
theorem Element.isActive_mirrors (h : Answers.Mirrors P Q look look') :
    Mirrors P Q (e.isActive look scope) (e.isActive look' scope) := by
  refine .adapt _ ?_
  cases e.attr? "if" <;> cases e.attr? "unless"
  · exact .pure true
  · exact .bind (conditionValue_mirrors h _ _) fun _ => .pure _
  · exact conditionValue_mirrors h _ _
  · exact .result (.error _)

/-! ## Declarations -/

/-- An `<arg>` gives its argument the same value. A default that is not resolved is resolved for
nobody. -/
theorem argValue_mirrors (h : Answers.Mirrors P Q look look') (name : String) :
    Mirrors P Q (argValue look scope a name) (argValue look' scope a name) :=
  .ite (.bind (text?_mirrors h _) fun _ => .pure _)
    (.ite (.ite (.pure _) (.bind (text?_mirrors h _) fun _ => .pure _)) (.pure _))

/-- An `<arg>` leaves the same scope behind. -/
theorem readArg_mirrors (h : Answers.Mirrors P Q look look') :
    Mirrors P Q (readArg look scope e) (readArg look' scope e) := by
  refine .bind (ask_mirrors h _) fun values => .bind (.result _) fun _ => ?_
  refine .bind (ask_mirrors h _) fun others => .bind (text_mirrors h _) fun name => ?_
  exact .bind (argValue_mirrors h name) fun _ => .bind (text?_mirrors h _) fun _ => .result _

/-- The names of a `<remap>` are the same, and so is the first one that is refused. -/
theorem readPair_mirrors (h : Answers.Mirrors P Q look look') :
    Mirrors P Q (readPair look scope e) (readPair look' scope e) := by
  refine .bind (ask_mirrors h _) fun a => .bind (text_mirrors h _) fun source => ?_
  refine .bind (text_mirrors h _) fun target => .bind (.result _) fun _ => ?_
  exact .bind (.result _) fun _ => .pure _

/-- A `<remap>` leaves the same scope behind. -/
theorem readRemap_mirrors (h : Answers.Mirrors P Q look look') :
    Mirrors P Q (readRemap look scope e) (readRemap look' scope e) :=
  .bind (readPair_mirrors h) fun _ => .pure _

/-- An `<env>` sets the same variable to the same value. -/
theorem readEnv_mirrors (h : Answers.Mirrors P Q look look') :
    Mirrors P Q (readEnv look scope e) (readEnv look' scope e) :=
  .bind (ask_mirrors h _) fun _ => .bind (text_mirrors h _) fun _ =>
    .bind (text_mirrors h _) fun _ => .pure _

/-! ## Namespaces -/

/-- The same namespace is entered, and cleared if it is to be. -/
theorem enterCleared_mirrors (h : Answers.Mirrors P Q look look') :
    Mirrors P Q (enterCleared look scope a e) (enterCleared look' scope a e) :=
  .bind (text?_mirrors h _) fun _ => .bind (.result _) fun _ => .bind (flag_mirrors h _) fun _ =>
    .ite (.ite (.result _) (.pure _)) (.pure _)

/-- A group is entered in the same namespace. -/
theorem readGroup_mirrors (h : Answers.Mirrors P Q look look') :
    Mirrors P Q (readGroup look scope e) (readGroup look' scope e) :=
  .bind (ask_mirrors h _) fun _ => enterCleared_mirrors h

/-! ## Nodes -/

namespace NodeSpec

variable {isTest : Bool}

/-- A test has the same name, retries and time limit. -/
theorem readKind_mirrors (h : Answers.Mirrors P Q look look') :
    Mirrors P Q (readKind look scope a isTest) (readKind look' scope a isTest) := by
  refine .ite (.bind (text_mirrors h _) fun testName => ?_) (.pure _)
  refine .bind (.result _) fun _ => .bind (text?_mirrors h _) fun _ => .bind (.result _) fun _ => ?_
  exact .bind (text?_mirrors h _) fun _ => .bind (.result _) fun _ => .pure _

/-- A node has the same name, and so has a test that is given none. -/
theorem readName_mirrors (h : Answers.Mirrors P Q look look') (kind : NodeKind) :
    Mirrors P Q (readName look scope a kind) (readName look' scope a kind) := by
  refine .bind (text?_mirrors h _) fun found => ?_
  cases found <;> cases kind <;>
    exact .bind (.pure _) fun name => .bind (.result _) fun _ => .pure name

/-- A node is respawned and required alike. -/
theorem readLifetime_mirrors (h : Answers.Mirrors P Q look look') :
    Mirrors P Q (readLifetime look scope a isTest) (readLifetime look' scope a isTest) :=
  .ite (.pure _) (.bind (flag_mirrors h _) fun _ => .bind (flag_mirrors h _) fun _ =>
    .ite (.result _) (.pure _))

/-- **A node is read to the same**: its texts are resolved one after the other, and between them
results without a state decide what goes on. -/
theorem read_mirrors (h : Answers.Mirrors P Q look look') (known : List MachineSpec) :
    Mirrors P Q (read look known scope isTest e) (read look' known scope isTest e) := by
  refine .bind (ask_mirrors h _) fun a => .bind (readKind_mirrors h) fun kind => ?_
  refine .bind (readName_mirrors h kind) fun name => .bind (text?_mirrors h _) fun ns => ?_
  refine .bind (.result _) fun around => .bind (text?_mirrors h _) fun machine => ?_
  refine .bind (.result _) fun machine => .bind (readLifetime_mirrors h) fun lifetime => ?_
  refine .bind (text?_mirrors h _) fun _ => .bind (.result _) fun respawnDelay => ?_
  refine .bind (flag_mirrors h _) fun isCleared => .bind (text_mirrors h _) fun package => ?_
  refine .bind (text_mirrors h _) fun type => .bind (text_mirrors h _) fun args => ?_
  refine .bind (text?_mirrors h _) fun _ => .bind (.result _) fun output => ?_
  refine .bind (text?_mirrors h _) fun _ => .bind (.result _) fun cwd => ?_
  exact .bind (text?_mirrors h _) fun launchPrefix => .pure _

end NodeSpec

/-! ## Parameters to the server -/

namespace RosparamCommand

/-- The text to load is the same, resolved or not. -/
theorem loadedText_mirrors (h : Answers.Mirrors P Q look look') :
    Mirrors P Q (loadedText look scope a e) (loadedText look' scope a e) := by
  unfold loadedText
  cases inlineText e with
  | none => exact .result _
  | some raw =>
    exact .bind (flag_mirrors h _) fun _ =>
      .ite (.adapt _ (Segment.evaluate_mirrors h raw)) (.pure raw)

/-- A `<rosparam>` is read to the same command and the same settings. -/
theorem read_mirrors (h : Answers.Mirrors P Q look look') :
    Mirrors P Q (read look scope e) (read look' scope e) := by
  refine .bind (ask_mirrors h _) fun a => .bind (text?_mirrors h _) fun _ => ?_
  refine .bind (.result _) fun op => .bind (text?_mirrors h _) fun _ => ?_
  refine .bind (.result _) fun base => .bind (text?_mirrors h _) fun param => ?_
  refine .bind (.result _) fun target => .bind (text?_mirrors h _) fun reference => ?_
  cases op with
  | load =>
    cases reference with
    | none =>
      exact .bind (loadedText_mirrors h) fun _ => .bind (.result _) fun _ => .pure _
    | some file => exact .pure _
  | dump =>
    cases reference with
    | none => exact .result _
    | some file => exact .pure _
  | delete =>
    refine .ite (.result _) ?_
    cases reference with
    | none => exact .pure _
    | some file => exact .result _

end RosparamCommand

/-! ## Includes -/

/-- An include leads to the same file, in the same namespace. -/
theorem IncludeHead.read_mirrors (h : Answers.Mirrors P Q look look') :
    Mirrors P Q (IncludeHead.read look scope e) (IncludeHead.read look' scope e) :=
  .bind (ask_mirrors h _) fun _ => .bind (text_mirrors h _) fun _ =>
    .bind (enterCleared_mirrors h) fun _ => .bind (flag_mirrors h _) fun _ => .pure _

namespace IncludeInputs

variable {inputs : IncludeInputs}

/-- A default gives way to the same values. -/
theorem passedValue_mirrors (h : Answers.Mirrors P Q look look') (passed : Dict String)
    (name : String) :
    Mirrors P Q (passedValue look scope passed a name) (passedValue look' scope passed a name) :=
  .ite (text?_mirrors h _) (.ite (.pure none) (text?_mirrors h _))

/-- What an `<arg>` of an include passes is the same. -/
theorem readPassed_mirrors (h : Answers.Mirrors P Q look look') (passed : Dict String) :
    Mirrors P Q (readPassed look scope passed e) (readPassed look' scope passed e) :=
  .bind (ask_mirrors h _) fun _ => .ite (.result _) (.bind (text_mirrors h _) fun name =>
    .bind (passedValue_mirrors h passed name) fun _ => .pure _)

/-- The same argument is passed, or refused. -/
theorem addArg_mirrors (h : Answers.Mirrors P Q look look') :
    Mirrors P Q (addArg look scope inputs e) (addArg look' scope inputs e) :=
  .bind (readPassed_mirrors h _) fun _ => .result _

/-- The same variable is passed. -/
theorem addEnv_mirrors (h : Answers.Mirrors P Q look look') :
    Mirrors P Q (addEnv look scope inputs e) (addEnv look' scope inputs e) :=
  .bind (readEnv_mirrors h) fun _ => .pure _

end IncludeInputs
end

/-! ## In a world -/

section

variable {L L' σ τ : Type} [Answers L σ] [Answers L' τ] {P : σ → τ → Prop} {Q : σ → Prop}
  {w : World L} {look : L'} {scope : Scope} {e : Element}

open Attributes

/-- An element that its parent does not allow is skipped or refused whoever answers. -/
theorem Element.activeTag_mirrors (h : Answers.Mirrors P Q w.look look) (parent : String) :
    Mirrors P Q (e.activeTag w parent scope) (e.activeTag (w.answeredBy look) parent scope) := by
  unfold activeTag
  cases Tag.child? parent e.tag with
  | none => exact .bind (.result _) fun _ => .pure none
  | some tag => exact .bind (isActive_mirrors h) fun _ => .ite (.pure _) (.pure _)

/-- A machine is declared with the same values. Its environment loader comes of the world. -/
theorem MachineSpec.read_mirrors (h : Answers.Mirrors P Q w.look look) :
    Mirrors P Q (read w scope e) (read (w.answeredBy look) scope e) := by
  refine .bind (ask_mirrors h _) fun a => .bind (text?_mirrors h _) fun _ => ?_
  refine .bind (.result _) fun sshPort => .bind (text?_mirrors h _) fun _ => ?_
  refine .bind (.result _) fun timeout => .bind (text?_mirrors h _) fun _ => ?_
  refine .bind (.result _) fun default => .bind (text?_mirrors h _) fun envLoader => ?_
  refine .bind (text_mirrors h _) fun name => .bind (text_mirrors h _) fun address => ?_
  exact .bind (text?_mirrors h _) fun user => .bind (text?_mirrors h _) fun password => .pure _

/-- A `<param>` sets the same value. The file that it may read is that of the world. -/
theorem readSetting_mirrors (h : Answers.Mirrors P Q w.look look) :
    Mirrors P Q (readSetting w scope e) (readSetting (w.answeredBy look) scope e) := by
  refine .bind (.result _) fun source => .bind (ask_mirrors h _) fun a => ?_
  refine .bind (text_mirrors h _) fun name => .bind (.result _) fun _ => ?_
  refine .bind (text?_mirrors h _) fun _ => .bind (.result _) fun type => ?_
  refine .bind (text_mirrors h _) fun text => ?_
  exact .bind (.result (source.valueOf w scope type text)) fun _ => .pure _

/-- A `<param>` makes the same settings. -/
theorem readParam_mirrors (h : Answers.Mirrors P Q w.look look) :
    Mirrors P Q (readParam w scope e) (readParam (w.answeredBy look) scope e) :=
  .bind (readSetting_mirrors h) fun _ => .pure _

namespace IncludeInputs

/-- A child of an include hands the same on. -/
theorem addChild_mirrors (h : Answers.Mirrors P Q w.look look) {inputs : IncludeInputs} :
    Mirrors P Q (addChild w scope inputs e) (addChild (w.answeredBy look) scope inputs e) := by
  refine .adapt _ (.bind (Element.activeTag_mirrors h "include") fun active => ?_)
  cases active with
  | none => exact .pure inputs
  | some tag =>
    cases tag with
    | arg => exact addArg_mirrors h
    | env => exact addEnv_mirrors h
    | _ => exact .pure inputs

/-- The children of an include hand the same on, one after the other. -/
theorem addChildren_mirrors (h : Answers.Mirrors P Q w.look look) :
    ∀ {inputs : IncludeInputs} (children : List Element),
      Mirrors P Q (inputs.addChildren w scope children)
        (inputs.addChildren (w.answeredBy look) scope children)
  | inputs, [] => .pure inputs
  | _, _ :: rest => .bind (addChild_mirrors h) fun _ => addChildren_mirrors h rest

end IncludeInputs
end
end LaunchFile
