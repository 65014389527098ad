import LaunchFile.Proofs.Faults.Basic

/-!
# Proofs/Faults/Read — reading an element is plain

Whatever is wrong with the attributes of an element, or with what they name, the error names no
files that are open, and its place is that of the element if it has one yet; what the children of an
include pass is at fault at the place of the child.
-/

namespace LaunchFile

section

variable {es : List Element} (w : World) (look : Lookups) (scope : Scope) (e : Element)

/-! ## Declarations -/

/-- A value beside a default is refused without a place; the element around gives it one later. -/
theorem isPlain_checkExclusive : (checkExclusive e).IsPlain es := by
  unfold checkExclusive
  split <;> simp

/-- An argument that was given another value is refused without a place. -/
theorem isPlain_bind (name : String) (binding : ArgBinding) :
    (scope.bind name binding).IsPlain es := by
  unfold Scope.bind
  split
  · exact .ok _
  · split <;> simp

/-- Of an argument's value only the text can be at fault. -/
theorem isPlain_argValue (a : Attributes) (name : String) :
    (argValue look scope a name).IsPlain es := by
  unfold argValue
  split
  · exact .bind (a.isPlain_text? look scope "value") fun _ => .pure _
  · split
    · split
      · exact .pure _
      · exact .bind (a.isPlain_text? look scope "default") fun _ => .pure _
    · exact .pure _

/-- An `<arg>` reports a missing or malformed attribute at its own place, and never a cycle. -/
theorem isPlain_readArg : (readArg look scope e).IsPlain [e] := by
  refine .bind (Attributes.isPlain_ask look e _) fun values => ?_
  refine .bind (.result (isPlain_checkExclusive e)) fun _ => ?_
  refine .bind (Attributes.isPlain_ask look e _) fun others => ?_
  refine .bind (others.isPlain_text look scope "name") fun name => ?_
  refine .bind (isPlain_argValue look scope values name) fun given => ?_
  refine .bind (others.isPlain_text? look scope "doc") fun doc => ?_
  exact .result (isPlain_bind scope name _)

/-- The names of a `<remap>` are checked one after the other, and the first that is refused is
reported. -/
theorem isPlain_readPair : (readPair look scope e).IsPlain [e] := by
  refine .bind (Attributes.isPlain_ask look e _) fun a => ?_
  refine .bind (a.isPlain_text look scope "from") fun source => ?_
  refine .bind (a.isPlain_text look scope "to") fun target => ?_
  refine .bind (.result (Result.isPlain_ofName source _)) fun _ => ?_
  refine .bind (.result (Result.isPlain_ofName target _)) fun _ => ?_
  exact .pure _

/-- A `<remap>` is at fault just where its names are. -/
theorem isPlain_readRemap : (readRemap look scope e).IsPlain [e] :=
  .bind (isPlain_readPair look scope e) fun _ => .pure _

/-- An `<env>` has no check of its own; what may be wrong are its attributes. -/
theorem isPlain_readEnv : (readEnv look scope e).IsPlain [e] := by
  refine .bind (Attributes.isPlain_ask look e _) fun a => ?_
  refine .bind (a.isPlain_text look scope "name") fun name => ?_
  refine .bind (a.isPlain_text look scope "value") fun value => ?_
  exact .pure _

/-! ## Machines -/

/-- A number of seconds that is not above zero is an invalid value. -/
theorem isPlain_positiveOf (attr text : String) :
    (MachineSpec.positiveOf attr text).IsPlain es := by
  unfold MachineSpec.positiveOf
  split <;> simp

/-- A machine that is declared anew with another definition is a conflict of its own kind. -/
theorem isPlain_isNew (known : List MachineSpec) (m : MachineSpec) :
    (MachineSpec.isNew known m).IsPlain es := by
  unfold MachineSpec.isNew
  split
  · exact .ok _
  · split <;> simp

/-- A port that is no number below the limit is an invalid value. -/
theorem isPlain_portOf (text : Option String) : (MachineSpec.portOf text).IsPlain es := by
  unfold MachineSpec.portOf
  split
  · exact .ok _
  · split <;> simp

/-- A timeout is at fault as any number of seconds is. -/
theorem isPlain_timeoutOf (text : Option String) : (MachineSpec.timeoutOf text).IsPlain es := by
  cases text with
  | none => exact .ok _
  | some text => exact isPlain_positiveOf "timeout" text

/-- A word that names no kind of default is an invalid value. -/
theorem isPlain_defaultOf (text : Option String) : (MachineSpec.defaultOf text).IsPlain es := by
  unfold MachineSpec.defaultOf
  split
  · exact .ok _
  · split <;> simp

/-- A `<machine>` has many attributes to check, and all its errors are about these. -/
theorem isPlain_readMachine : (MachineSpec.read w scope e).IsPlain [e] := by
  refine .bind (Attributes.isPlain_ask w.look e _) fun a => ?_
  refine .bind (a.isPlain_text? w.look scope "ssh-port") fun port => ?_
  refine .bind (.result (isPlain_portOf port)) fun _ => ?_
  refine .bind (a.isPlain_text? w.look scope "timeout") fun timeout => ?_
  refine .bind (.result (isPlain_timeoutOf timeout)) fun _ => ?_
  refine .bind (a.isPlain_text? w.look scope "default") fun default => ?_
  refine .bind (.result (isPlain_defaultOf default)) fun _ => ?_
  refine .bind (a.isPlain_text? w.look scope "env-loader") fun _ => ?_
  refine .bind (a.isPlain_text w.look scope "name") fun _ => ?_
  refine .bind (a.isPlain_text w.look scope "address") fun _ => ?_
  refine .bind (a.isPlain_text? w.look scope "user") fun _ => ?_
  refine .bind (a.isPlain_text? w.look scope "password") fun _ => ?_
  exact .pure _

/-! ## Parameters -/

namespace ParamValue

/-- A key that is a list or a mapping has no text, which is a fault of the value. -/
theorem isPlain_keyText (key : Yaml.Value) : (keyText key).IsPlain es := by
  unfold keyText
  split <;> simp

mutual

theorem isPlain_ofYaml : ∀ value : Yaml.Value, (ofYaml value).IsPlain es
  | .null => by simp [ofYaml]
  | .bool _ => .ok _
  | .int _ => .ok _
  | .float _ => .ok _
  | .str _ => .ok _
  | .seq items => by
    rw [ofYaml]
    exact (isPlain_ofYamlItems items).bind fun _ => .ok _
  | .map entries => by
    rw [ofYaml]
    exact (isPlain_ofYamlEntries .empty entries).bind fun _ => .ok _
  | .tagged _ value => by
    rw [ofYaml]
    exact isPlain_ofYaml value

/-- The items of a list are at fault one after the other. -/
theorem isPlain_ofYamlItems : ∀ items : List Yaml.Value, (ofYamlItems items).IsPlain es
  | [] => .ok _
  | item :: rest => by
    rw [ofYamlItems]
    exact (isPlain_ofYaml item).bind fun _ => (isPlain_ofYamlItems rest).bind fun _ => .ok _

/-- The entries of a mapping are at fault in their keys or in their values. -/
theorem isPlain_ofYamlEntries : ∀ (found : Dict ParamValue)
    (entries : List (Yaml.Value × Yaml.Value)), (ofYamlEntries found entries).IsPlain es
  | _, [] => .ok _
  | found, (key, value) :: rest => by
    rw [ofYamlEntries]
    exact (isPlain_keyText key).bind fun _ => (isPlain_ofYaml value).bind fun _ =>
      isPlain_ofYamlEntries _ rest

end

/-- A text that is no document at all is a fault of the value, too. -/
theorem isPlain_parseYaml (text : String) : (parseYaml text).IsPlain es := by
  unfold parseYaml
  split
  · exact isPlain_ofYaml _
  · simp

/-- A text without a value of its type is invalid. -/
theorem isPlain_orInvalid {α : Type} (text : String) (fault : ValueFault) (value : Option α) :
    (orInvalid text fault value).IsPlain es := by
  unfold orInvalid
  split <;> simp

/-- A text is read by its type, and is at fault in the way of that type. -/
theorem isPlain_ofTyped (text : String) (type : ParamType) : (ofTyped text type).IsPlain es := by
  cases type with
  | auto => exact .ok _
  | str => exact .ok _
  | int => exact isPlain_orInvalid text _ _
  | double => exact isPlain_orInvalid text _ _
  | bool =>
    rw [ofTyped]
    exact Except.Faults.map (isPlain_readBoolean "value" text) _
  | yaml => exact isPlain_parseYaml text

end ParamValue

/-- A file that is missing or holds no text is reported by its path and names no open files. -/
theorem isPlain_readText (files : Files) (path : Path) : (files.readText path).IsPlain es := by
  unfold Files.readText
  exact Result.isPlain_mapError (by simp)

/-- A file that is missing is reported by its path. -/
theorem isPlain_readBytes (files : Files) (path : Path) : (files.readBytes path).IsPlain es := by
  unfold Files.readBytes
  exact Result.isPlain_mapError (by simp)

/-- A `<param>` without a source, or with several, is refused without a place. -/
theorem isPlain_only : (ParamSource.only e).IsPlain es := by
  unfold ParamSource.only
  split <;> simp

/-- The value that a source stands for is at fault in its text, or in the file that it names. -/
theorem isPlain_valueOf (type : ParamType) (text : String) (source : ParamSource) :
    (source.valueOf w scope type text).IsPlain es := by
  cases source with
  | value => exact ParamValue.isPlain_ofTyped text type
  | textfile => exact (isPlain_readText w.files _).map _
  | binfile => exact (isPlain_readBytes w.files _).map _
  | command => exact .ok _

/-- A word that names no type is an invalid value. -/
theorem isPlain_paramType (text : Option String) : (paramType text).IsPlain es := by
  cases text with
  | none => exact .ok _
  | some text =>
    change (ParamType.parse text).IsPlain es
    unfold ParamType.parse
    split <;> simp

/-- A `<param>` reports the name, the type or the value that is wrong at its own place. -/
theorem isPlain_readSetting : (readSetting w scope e).IsPlain [e] := by
  refine .bind (.result (isPlain_only e)) fun source => ?_
  refine .bind (Attributes.isPlain_ask w.look e _) fun a => ?_
  refine .bind (a.isPlain_text w.look scope "name") fun name => ?_
  refine .bind (.result (Result.isPlain_ofName name _)) fun _ => ?_
  refine .bind (a.isPlain_text? w.look scope "type") fun type => ?_
  refine .bind (.result (isPlain_paramType type)) fun type => ?_
  refine .bind (a.isPlain_text w.look scope source.attr) fun text => ?_
  refine .bind (.result (isPlain_valueOf w scope type text source)) fun value => ?_
  exact .pure _

theorem isPlain_readParam : (readParam w scope e).IsPlain [e] :=
  .bind (isPlain_readSetting w scope e) fun _ => .pure _

/-! ## Commands -/

namespace RosparamCommand

/-- A word that names no command is an invalid value. -/
theorem isPlain_opOf (text : Option String) : (opOf text).IsPlain es := by
  unfold opOf
  split
  · exact .ok _
  · split <;> simp

/-- A namespace that is no name is refused. -/
theorem isPlain_baseNs (ns : Option String) : (baseNs scope ns).IsPlain es := by
  cases ns with
  | none => exact .ok _
  | some ns => exact (Result.isPlain_ofName ns _).bind fun _ => .ok _

/-- The name of a parameter is refused by the same check. -/
theorem isPlain_targetOf (base : String) (param : Option String) :
    (targetOf scope base param).IsPlain es := by
  cases param with
  | none => exact .ok _
  | some param => exact (Result.isPlain_ofName param _).bind fun _ => .ok _

/-- Inline text is at fault as a document, or as a value that needs a name. -/
theorem isPlain_settings (target : String) (isNamed : Bool) (text : String)
    (location : Location) : (settings target isNamed text location).IsPlain es := by
  refine (ParamValue.isPlain_parseYaml text).bind fun value => ?_
  split
  · simp
  · split <;> exact .ok _

/-- A command to load without anything to load misses its file. -/
theorem isPlain_loadedText (a : Attributes) : (loadedText look scope a e).IsPlain es := by
  unfold loadedText
  split
  · exact .result (by simp)
  · refine .bind (a.isPlain_flag look scope "subst_value") fun substitutes => ?_
    cases substitutes with
    | true => exact .ofResolve fun _ => Segment.keeps_evaluate scope look _
    | false => exact .pure _

/-- A `<rosparam>` reports what its command lacks, or has too much of, at its own place. -/
theorem isPlain_read : (read look scope e).IsPlain [e] := by
  refine .bind (Attributes.isPlain_ask look e _) fun a => ?_
  refine .bind (a.isPlain_text? look scope "command") fun op => ?_
  refine .bind (.result (isPlain_opOf op)) fun op => ?_
  refine .bind (a.isPlain_text? look scope "ns") fun ns => ?_
  refine .bind (.result (isPlain_baseNs scope ns)) fun base => ?_
  refine .bind (a.isPlain_text? look scope "param") fun param => ?_
  refine .bind (.result (isPlain_targetOf scope base param)) fun target => ?_
  refine .bind (a.isPlain_text? look scope "file") fun reference => ?_
  dsimp only
  generalize reference.map _ = file
  cases op with
  | load =>
    cases file with
    | some _ => exact .pure _
    | none =>
      refine .bind (isPlain_loadedText look scope e a) fun text => ?_
      refine .bind (.result (isPlain_settings target _ text e.location)) fun params => ?_
      exact .pure _
  | dump =>
    cases file with
    | some _ => exact .pure _
    | none => exact .result (by simp)
  | delete =>
    dsimp only
    split
    · exact .result (by simp)
    · split
      · exact .result (by simp)
      · exact .pure _

end RosparamCommand

/-! ## Namespaces -/

/-- A namespace that is no name is not entered. -/
theorem isPlain_enterNs (ns : Option String) : (scope.enterNs ns).IsPlain es := by
  cases ns with
  | none => exact .ok _
  | some ns => exact (Result.isPlain_ofName _ _).bind fun _ => .ok _

/-- Clearing without a namespace of its own misses that attribute. -/
theorem isPlain_enterCleared (a : Attributes) : (enterCleared look scope a e).IsPlain es := by
  refine .bind (a.isPlain_text? look scope "ns") fun ns => ?_
  refine .bind (.result (isPlain_enterNs scope ns)) fun inner => ?_
  refine .bind (a.isPlain_flag look scope "clear_params") fun clears => ?_
  split
  · split
    · exact .result (by simp)
    · exact .pure _
  · exact .pure _

theorem isPlain_readGroup : (readGroup look scope e).IsPlain [e] :=
  .bind (Attributes.isPlain_ask look e _) fun a => isPlain_enterCleared look scope e a

/-! ## Nodes -/

namespace NodeSpec

/-- A number of retries has to be a count. -/
theorem isPlain_retryOf (text : Option String) : (retryOf text).IsPlain es := by
  unfold retryOf
  split
  · exact .ok _
  · split <;> simp

/-- A limit of time is at fault as any number of seconds is. -/
theorem isPlain_timeLimitOf (text : Option String) : (timeLimitOf text).IsPlain es := by
  cases text with
  | none => exact .ok _
  | some text => exact isPlain_positiveOf "time-limit" text

/-- A delay may be zero but not below. -/
theorem isPlain_respawnDelayOf (text : Option String) : (respawnDelayOf text).IsPlain es := by
  unfold respawnDelayOf
  split
  · exact .ok _
  · split <;> simp

/-- A word that names no target of the output is an invalid value. -/
theorem isPlain_outputOf (text : Option String) : (outputOf text).IsPlain es := by
  unfold outputOf
  split
  · exact .ok _
  · split <;> simp

/-- A word that names no directory to work in is an invalid value. -/
theorem isPlain_cwdOf (text : Option String) : (cwdOf text).IsPlain es := by
  unfold cwdOf
  split
  · exact .ok _
  · split <;> simp

/-- A machine that is not declared is an error of its own kind. -/
theorem isPlain_machineOf (known : List MachineSpec) (name : Option String) :
    (machineOf known scope name).IsPlain es := by
  unfold machineOf
  split
  · exact .ok _
  · split <;> simp

variable (a : Attributes) (isTest : Bool)

/-- What only a test has is checked only of a test. -/
theorem isPlain_readKind : (readKind look scope a isTest).IsPlain es := by
  cases isTest with
  | false => exact .pure _
  | true =>
    refine .bind (a.isPlain_text look scope "test-name") fun testName => ?_
    refine .bind (.result (Result.isPlain_ofName testName _)) fun _ => ?_
    refine .bind (a.isPlain_text? look scope "retry") fun retry => ?_
    refine .bind (.result (isPlain_retryOf retry)) fun _ => ?_
    refine .bind (a.isPlain_text? look scope "time-limit") fun limit => ?_
    refine .bind (.result (isPlain_timeLimitOf limit)) fun _ => ?_
    exact .pure _

/-- The name of a node may hold no slash, and a name that does is refused. -/
theorem isPlain_readName (kind : NodeKind) : (readName look scope a kind).IsPlain es := by
  refine .bind (a.isPlain_text? look scope "name") fun given => ?_
  have hchecked : ∀ name, LaunchT.IsPlain (do
      Result.ofName name (GraphName.checkBase name)
      return name) es :=
    fun name => .bind (.result (Result.isPlain_ofName name _)) fun _ => .pure _
  dsimp only
  split <;> exact .bind (.pure _) hchecked

/-- A node that is both respawned and required is refused. -/
theorem isPlain_readLifetime : (readLifetime look scope a isTest).IsPlain es := by
  cases isTest with
  | true => exact .pure _
  | false =>
    refine .bind (a.isPlain_flag look scope "respawn") fun respawn => ?_
    refine .bind (a.isPlain_flag look scope "required") fun required => ?_
    split
    · exact .result (by simp)
    · exact .pure _

/-- A `<node>` or `<test>` reports the first attribute that is wrong, in the order in which they are
resolved. -/
theorem isPlain_read (known : List MachineSpec) : (read look known scope isTest e).IsPlain [e] := by
  refine .bind (Attributes.isPlain_ask look e _) fun a => ?_
  refine .bind (isPlain_readKind look scope a isTest) fun kind => ?_
  refine .bind (isPlain_readName look scope a kind) fun name => ?_
  refine .bind (a.isPlain_text? look scope "ns") fun ns => ?_
  refine .bind (.result (isPlain_enterNs scope ns)) fun around => ?_
  refine .bind (a.isPlain_text? look scope "machine") fun machine => ?_
  refine .bind (.result (isPlain_machineOf scope known machine)) fun _ => ?_
  refine .bind (isPlain_readLifetime look scope a isTest) fun _ => ?_
  refine .bind (a.isPlain_text? look scope "respawn_delay") fun delay => ?_
  refine .bind (.result (isPlain_respawnDelayOf delay)) fun _ => ?_
  refine .bind (a.isPlain_flag look scope "clear_params") fun _ => ?_
  refine .bind (a.isPlain_text look scope "pkg") fun _ => ?_
  refine .bind (a.isPlain_text look scope "type") fun _ => ?_
  refine .bind (a.isPlain_text look scope "args") fun _ => ?_
  refine .bind (a.isPlain_text? look scope "output") fun output => ?_
  refine .bind (.result (isPlain_outputOf output)) fun _ => ?_
  refine .bind (a.isPlain_text? look scope "cwd") fun cwd => ?_
  refine .bind (.result (isPlain_cwdOf cwd)) fun _ => ?_
  refine .bind (a.isPlain_text? look scope "launch-prefix") fun _ => ?_
  exact .pure _

end NodeSpec

/-! ## Includes -/

/-- The attributes of an `<include>` report no cycle; the files that are open are looked at behind
them. -/
theorem isPlain_readHead : (IncludeHead.read look scope e).IsPlain [e] := by
  refine .bind (Attributes.isPlain_ask look e _) fun a => ?_
  refine .bind (a.isPlain_text look scope "file") fun reference => ?_
  refine .bind (isPlain_enterCleared look scope e a) fun entered => ?_
  refine .bind (a.isPlain_flag look scope "pass_all_args") fun passesAll => ?_
  exact .pure _

namespace IncludeInputs

variable (inputs : IncludeInputs)

/-- An argument that is passed twice is a conflict. -/
theorem isPlain_pass (name : String) (value : Option String) :
    (inputs.pass name value).IsPlain es := by
  unfold pass
  split <;> simp

/-- An `<arg>` of an include without a value and a default misses one. -/
theorem isPlain_readPassed (passed : Dict String) :
    (readPassed look scope passed e).IsPlain [e] := by
  refine .bind (Attributes.isPlain_ask look e _) fun a => ?_
  split
  · exact .result (by simp)
  · refine .bind (a.isPlain_text look scope "name") fun name => ?_
    refine .bind ?_ fun value => .pure _
    unfold passedValue
    split
    · exact a.isPlain_text? look scope "value"
    · split
      · exact .pure _
      · exact a.isPlain_text? look scope "default"

/-- A child of an include is at fault at its own place, and not at that of the include. -/
theorem isPlain_addChild : (addChild w scope inputs e).IsPlain [e] := by
  refine LaunchT.IsPlain.located ?_ List.mem_cons_self
  refine .bind (isPlain_activeTag w scope e "include") fun tag => ?_
  split
  · exact .bind (isPlain_readPassed w.look scope e inputs.args) fun passed =>
      .result (isPlain_pass inputs passed.1 passed.2)
  · exact .bind (isPlain_readEnv w.look scope e) fun _ => .pure _
  · exact .pure _

/-- **What an include passes on is plain.** -/
theorem isPlain_addChildren : ∀ (inputs : IncludeInputs) (es : List Element),
    (addChildren w scope inputs es).IsPlain es
  | _, [] => .pure _
  | inputs, e :: rest =>
    .bind ((isPlain_addChild w scope e inputs).mono (List.cons_subset_cons e rest.nil_subset))
      fun inputs => (isPlain_addChildren inputs rest).mono (List.subset_cons_self e rest)

end IncludeInputs

/-! ## Files -/

/-- A root with another tag is refused at its own place. -/
theorem isPlain_checkRoot (root : Element) : (root.checkRoot).IsPlain [root] := by
  unfold Element.checkRoot
  split
  · exact .ok _
  · exact Result.IsPlain.located (by simp) List.mem_cons_self

/-- A document that is not well formed is no cycle. -/
theorem noCycle_notWellFormed {α : Type} (file : Option Path) (place : Xml.Place) :
    Except.Faults LaunchError.NoCycle (Element.notWellFormed file place : Result α) :=
  .error fun _ h => nomatch h

/-- Reading a text finds no cycle, whatever is wrong with it. -/
theorem noCycle_parse (source : String) (file : Option Path) :
    Except.Faults LaunchError.NoCycle (Element.parse source file) := by
  unfold Element.parse
  split
  · exact noCycle_notWellFormed file _
  · split
    · exact noCycle_notWellFormed file _
    · exact ((isPlain_checkRoot _).mono fun _ he => he.noCycle).bind fun _ => .ok _

/-- Reading a file opens no other, so that it finds no cycle either. -/
theorem noCycle_readTree (path : Path) :
    Except.Faults LaunchError.NoCycle (readTree w path) := by
  have hread : (w.files.readText path).IsPlain [] := isPlain_readText w.files path
  exact (hread.mono fun _ he => he.noCycle).bind fun source => noCycle_parse source (some path)

end
end LaunchFile
