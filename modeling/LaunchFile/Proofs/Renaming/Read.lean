import LaunchFile.Proofs.Entering
import LaunchFile.Proofs.Renaming.Scope

/-!
# Proofs/Renaming/Read — elements read in two scopes that differ in names

An element that is read in two related scopes gives the same error in both, or results that are
related: the same values, under renamed names. The names follow only as far as the texts that they
come from go along (`Renaming.Keeps`); nothing else depends on these texts. The elements may
differ in their conditions and their children, which no reading looks at.
-/

namespace LaunchFile

section

variable {f : Renaming} {s s' : Scope} {e e' : Element} {look : Lookups}
  {excused : LaunchError → Prop}

/-! ## Declarations -/

/-- An `<arg>` leaves scopes behind that are renamed. -/
theorem readArg_lockstep (hexact : f.exact) (h : s.Renamed f s') (he : e.SameReading e') :
    Lockstep excused Eq (Scope.Renamed f) (readArg look s e) (readArg look s' e') := by
  unfold readArg argValue
  rw [he.ask _ _ (by decide), he.ask _ _ (by decide), he.checkExclusive]
  simp only [h.text, h.text?, h.isOverridden hexact]
  refine .bind_same fun values _ => ?_
  refine .bind_same fun _ _ => ?_
  refine .bind_same fun others _ => ?_
  refine .bind_same fun name _ => ?_
  refine .bind_same fun given _ => ?_
  refine .bind_same fun doc _ => ?_
  exact (h.bind hexact name _).lockstep

/-- The names of a `<remap>` are those written, whatever the scope. -/
theorem readPair_eq (h : s.Renamed f s') (he : e.SameReading e') :
    readPair look s' e' = readPair look s e := by
  unfold readPair
  rw [he.ask _ _ (by decide)]
  simp only [h.text]

/-- A `<remap>` adds pairs whose names go along. -/
theorem readRemap_lockstep (h : s.Renamed f s') (he : e.SameReading e') :
    Lockstep excused Eq
      (fun a b => e.NamesAre f.Keeps look s ["from", "to"] → a.Renamed f b)
      (readRemap look s e) (readRemap look s' e') := by
  unfold readRemap
  rw [readPair_eq h he]
  refine .bind_same fun pair hpair => ?_
  obtain ⟨source, target⟩ := pair
  obtain ⟨hfrom, hto⟩ := resolves_of_readPair hpair
  exact .pure fun hkeeps =>
    h.addRemap (hkeeps "from" (by simp) source hfrom) (hkeeps "to" (by simp) target hto)

/-- A variable of the environment is the same. -/
theorem readEnv_eq (h : e.ReadsAlike look s s') (he : e.SameReading e') :
    Lockstep excused Eq Eq (readEnv look s e) (readEnv look s' e') := by
  unfold readEnv
  rw [he.ask _ _ (by decide)]
  refine .bind_same fun a ha => ?_
  rw [h.text (Attributes.read_of_yields ha), h.text (Attributes.read_of_yields ha)]
  exact .refl _

/-! ## Machines and parameters -/

/-- A machine is the same; it has no name that lies in a namespace. -/
theorem machineSpec_read_eq (w : World) (strict : Bool) (h : s.SameTexts s')
    (he : e.SameReading e') :
    MachineSpec.read { w with strict } s' e' = MachineSpec.read w s e := by
  unfold MachineSpec.read
  rw [he.ask _ _ (by decide)]
  simp only [h.text, h.text?, he.location]

theorem valueOf_eq (w : World) (strict : Bool) (h : s.SameTexts s') (type : ParamType)
    (text : String) (source : ParamSource) :
    source.valueOf { w with strict } s' type text = source.valueOf w s type text := by
  cases source <;> simp only [ParamSource.valueOf, h.resolvePath]

/-- The same value under a renamed name. -/
theorem readSetting_lockstep (w : World) (strict : Bool) (h : s.Renamed f s')
    (he : e.SameReading e') :
    Lockstep excused Eq
      (fun a b => b.2 = a.2 ∧ (e.NamesAre f.Keeps w.look s ["name"] → f.Sends a.1 b.1))
      (readSetting w s e) (readSetting { w with strict } s' e') := by
  unfold readSetting
  rw [he.only]
  refine .bind_same fun source _ => ?_
  rw [he.ask _ _ (by cases source <;> decide)]
  simp only [h.text, h.text?, valueOf_eq w strict h.toSameTexts]
  refine .bind_same fun a ha => ?_
  refine .bind_same fun name hname => ?_
  refine .bind_same fun _ _ => ?_
  refine .bind_same fun _ _ => ?_
  refine .bind_same fun type _ => ?_
  refine .bind_same fun text _ => ?_
  refine .bind_same fun value _ => ?_
  refine .pure ⟨rfl, fun hkeeps => h.resolveParamName ?_⟩
  exact hkeeps "name" (by simp) name
    (Attributes.resolves_of_text (Attributes.read_of_yields ha) (by simp) hname)

/-- A `<param>` makes settings that are renamed. -/
theorem readParam_lockstep (w : World) (strict : Bool) (h : s.Renamed f s')
    (he : e.SameReading e') :
    Lockstep excused Eq
      (fun a b => e.NamesAre f.Keeps w.look s ["name"] → ParamSpec.Renamed f a b)
      (readParam w s e) (readParam { w with strict } s' e') := by
  unfold readParam
  refine .bind (readSetting_lockstep w strict h he) fun setting setting' _ hsetting => ?_
  obtain ⟨name, value⟩ := setting
  obtain ⟨name', value'⟩ := setting'
  obtain ⟨rfl, hname⟩ := hsetting
  rw [he.location]
  exact .pure fun hkeeps => .ofValue (hname hkeeps) _ e.location

/-! ## Commands -/

/-- Commands under renamed names. -/
def RosparamCommand.Renamed (f : Renaming) (command command' : RosparamCommand) : Prop :=
  command' = command.mapNames f.map

namespace RosparamCommand

/-- The base of a `<rosparam>` goes along if its namespace does. -/
theorem baseNs_agree (h : s.Renamed f s') (ns : Option String) :
    Except.Agree (fun a b => (∀ text ∈ ns, f.Keeps text) → f.Sends a b)
      (baseNs s ns) (baseNs s' ns) := by
  cases ns with
  | none => exact fun _ => h.paramNs
  | some text =>
    rw [baseNs, baseNs]
    cases Result.ofName text (GraphName.check true text) with
    | error e => rfl
    | ok => exact fun hkeeps => h.resolveParamName (hkeeps text rfl)

/-- The target of a `<rosparam>` goes along if its name does. -/
theorem targetOf_agree (h : s.Renamed f s') (base base' : String) (param : Option String) :
    Except.Agree
      (fun a b => f.Sends base base' → (∀ text ∈ param, f.Keeps text) → f.Sends a b)
      (targetOf s base param) (targetOf s' base' param) := by
  cases param with
  | none => exact fun hbase _ => hbase
  | some text =>
    rw [targetOf, targetOf]
    cases Result.ofName text (GraphName.check false text) with
    | error e => rfl
    | ok =>
      intro hbase hkeeps
      split
      · exact h.resolveName (hkeeps text rfl)
      · exact hbase.join text

/-- Inline text makes settings below targets that go along. -/
theorem settings_agree (target target' : String) (isNamed : Bool) (text : String)
    (location : Location) :
    Except.Agree (fun a b => f.Sends target target' → ParamSpec.Renamed f a b)
      (settings target isNamed text location) (settings target' isNamed text location) := by
  rw [settings, settings]
  cases ParamValue.parseYaml text with
  | error e => rfl
  | ok value =>
    show Except.Agree _ (ite _ _ _) (ite _ _ _)
    split
    · rfl
    · split
      · exact fun _ => .nil f
      · exact fun htarget => .ofValue htarget value location

/-- What a `<rosparam>` gives: a command, and the settings that it makes at once. -/
theorem read_lockstep (h : s.Renamed f s') (he : e.SameReading e') :
    Lockstep excused Eq
      (fun a b => e.NamesAre f.Keeps look s ["ns", "param"] →
        RosparamCommand.Renamed f a.1 b.1 ∧ ParamSpec.Renamed f a.2 b.2)
      (read look s e) (read look s' e') := by
  unfold read loadedText
  rw [he.ask _ _ (by decide), he.inlineText]
  simp only [h.text?, h.flag, h.evaluate, h.resolvePath, he.location]
  refine .bind_same fun a ha => ?_
  refine .bind_same fun _ _ => ?_
  refine .bind_same fun op _ => ?_
  refine .bind_same fun ns hns => ?_
  refine .bind (baseNs_agree h ns).lockstep fun base base' _ hbase => ?_
  refine .bind_same fun param hparam => ?_
  refine .bind (targetOf_agree h base base' param).lockstep fun target target' _ htarget => ?_
  have hsends : e.NamesAre f.Keeps look s ["ns", "param"] → f.Sends target target' := fun hkeeps =>
    htarget (hbase fun text htext => hkeeps "ns" (by simp) text
        (Attributes.resolves_of_text? (Attributes.read_of_yields ha) hns text htext))
      fun text htext => hkeeps "param" (by simp) text
        (Attributes.resolves_of_text? (Attributes.read_of_yields ha) hparam text htext)
  have hcommand : ∀ file text, e.NamesAre f.Keeps look s ["ns", "param"] →
      RosparamCommand.Renamed f ⟨op, target, file, text, e.location⟩
        ⟨op, target', file, text, e.location⟩ := fun _ _ hkeeps => by
    rw [RosparamCommand.Renamed, (hsends hkeeps).eq]
    rfl
  refine .bind_same fun reference _ => ?_
  cases op with
  | load =>
    cases reference with
    | some reference => exact .pure fun hkeeps => ⟨hcommand _ _ hkeeps, .nil f⟩
    | none =>
      refine .bind_same fun text _ => ?_
      have hsettings := fun isNamed =>
        settings_agree (f := f) target target' isNamed text e.location
      refine .bind (hsettings _).lockstep fun params params' _ h => ?_
      exact .pure fun hkeeps => ⟨hcommand _ _ hkeeps, h (hsends hkeeps)⟩
  | dump =>
    cases reference with
    | some reference => exact .pure fun hkeeps => ⟨hcommand _ _ hkeeps, .nil f⟩
    | none => exact .error _
  | delete =>
    cases param with
    | none => exact .error _
    | some param =>
      cases reference with
      | some reference => exact .error _
      | none => exact .pure fun hkeeps => ⟨hcommand _ _ hkeeps, .nil f⟩

end RosparamCommand

/-! ## Namespaces -/

/-- What holds of two scopes inside of a namespace, as far as the namespace goes along. -/
theorem enterNs_agree {R : Scope → Scope → Prop} (h : R s s') (ns : Option String)
    (hpush : ∀ text ∈ ns, f.Keeps text → R (s.pushNamespace text) (s'.pushNamespace text)) :
    Except.Agree (fun a b => (∀ text ∈ ns, f.Keeps text) → R a b) (s.enterNs ns)
      (s'.enterNs ns) := by
  cases ns with
  | none => exact fun _ => h
  | some text =>
    rw [Scope.enterNs, Scope.enterNs]
    cases Result.ofName text (GraphName.check true text) with
    | error e => rfl
    | ok => exact fun hkeeps => hpush text rfl (hkeeps text rfl)

/-- Clearings under renamed names. -/
def RosparamCommand.ClearsRenamed (f : Renaming) (clear clear' : Option RosparamCommand) : Prop :=
  clear' = clear.map (mapNames f.map)

/-- The scope inside of a namespace, and the clearing of it. -/
theorem enterCleared_lockstep {R : Scope → Scope → Prop} {wanted : List Wanted} {a : Attributes}
    (h : R s s')
    (hpush : ∀ text, e.Resolves look s "ns" text → f.Keeps text →
      R (s.pushNamespace text) (s'.pushNamespace text))
    (hns : ∀ {a b}, R a b → f.Sends a.ns b.ns) (htexts : e.ReadsAlike look s s')
    (hread : Attributes.read e wanted = .ok a) (he : e.SameReading e') :
    Lockstep excused Eq
      (fun x y => e.NamesAre f.Keeps look s ["ns"] →
        R x.1 y.1 ∧ RosparamCommand.ClearsRenamed f x.2 y.2)
      (enterCleared look s a e) (enterCleared look s' a e') := by
  unfold enterCleared
  rw [htexts.text? hread, htexts.flag hread, he.tag, he.location]
  refine .bind_same fun ns hfound => ?_
  have hresolves := Attributes.resolves_of_text? hread hfound
  have hkept : e.NamesAre f.Keeps look s ["ns"] → ∀ text ∈ ns, f.Keeps text :=
    fun hkeeps text htext => hkeeps "ns" (by simp) text (hresolves text htext)
  refine .bind (enterNs_agree h ns fun text htext => hpush text (hresolves text htext)).lockstep
    fun inner inner' _ hinner => ?_
  refine .bind_same fun clears _ => ?_
  split
  · split
    · exact .error _
    · refine .pure fun hkeeps => ⟨hinner (hkept hkeeps), ?_⟩
      rw [RosparamCommand.ClearsRenamed, (hns (hinner (hkept hkeeps))).eq]
      rfl
  · exact .pure fun hkeeps => ⟨hinner (hkept hkeeps), rfl⟩

/-- A group leads into scopes that are renamed, and clears what is renamed. -/
theorem readGroup_lockstep (h : s.Renamed f s') (he : e.SameReading e') :
    Lockstep excused Eq
      (fun x y => e.NamesAre f.Keeps look s ["ns"] →
        x.1.Renamed f y.1 ∧ RosparamCommand.ClearsRenamed f x.2 y.2)
      (readGroup look s e) (readGroup look s' e') := by
  unfold readGroup
  rw [he.ask _ _ (by decide)]
  refine .bind_same fun a ha => ?_
  exact enterCleared_lockstep h (fun _ _ => h.pushNamespace) Scope.Renamed.ns (h.readsAlike e)
    (Attributes.read_of_yields ha) he

/-! ## Nodes -/

namespace NodeSpec

/-- Nodes before their children under renamed names. -/
structure Entered.Renamed (f : Renaming) (n n' : Entered) : Prop where
  spec : n'.spec = n.spec.mapNames f.map
  name : f.Sends n.spec.name n'.spec.name
  name_ne_root : n.spec.name ≠ "/"
  scope : n.scope.Renamed f n'.scope
  clear : RosparamCommand.ClearsRenamed f n.clear n'.clear

/-- No attribute of a node is a condition. -/
theorem wanted_notMem_conditionAttrs (isTest : Bool) :
    ∀ w ∈ wanted isTest, w.name ∉ conditionAttrs := by
  cases isTest <;> decide

/-- The kind of a node is the same. -/
theorem readKind_eq (h : s.SameTexts s') (a : Attributes) (isTest : Bool) :
    readKind look s' a isTest = readKind look s a isTest := by
  unfold readKind
  simp only [h.text, h.text?]

/-- The own name of a node is the same. -/
theorem readName_eq (h : s.SameTexts s') (a : Attributes) (kind : NodeKind) :
    readName look s' a kind = readName look s a kind := by
  unfold readName
  simp only [h.text?]

theorem readLifetime_eq (h : s.SameTexts s') (a : Attributes) (isTest : Bool) :
    readLifetime look s' a isTest = readLifetime look s a isTest := by
  unfold readLifetime
  simp only [h.flag]

/-- **A node is read to a renamed one**, if its namespace goes along. -/
theorem read_lockstep (known : List MachineSpec) (isTest : Bool) (h : s.Renamed f s')
    (he : e.SameReading e') :
    Lockstep excused Eq
      (fun n n' => e.NamesAre f.Keeps look s ["ns"] → Entered.Renamed f n n')
      (read look known s isTest e) (read look known s' isTest e') := by
  unfold read
  rw [he.ask _ _ (wanted_notMem_conditionAttrs isTest)]
  simp only [h.text, h.text?, h.flag, readKind_eq h.toSameTexts, readName_eq h.toSameTexts,
    readLifetime_eq h.toSameTexts, machineOf, h.machine, he.location]
  refine .bind_same fun a ha => ?_
  refine .bind_same fun kind _ => ?_
  refine .bind_same fun name hname => ?_
  refine .bind_same fun ns hns => ?_
  refine .bind (enterNs_agree h ns fun _ _ => h.pushNamespace).lockstep fun
    around around' _ haround => ?_
  refine .bind_same fun _ _ => ?_
  refine .bind_same fun machine _ => ?_
  refine .bind_same fun lifetime _ => ?_
  refine .bind_same fun _ _ => ?_
  refine .bind_same fun respawnDelay _ => ?_
  refine .bind_same fun isCleared _ => ?_
  refine .bind_same fun package _ => ?_
  refine .bind_same fun type _ => ?_
  refine .bind_same fun args _ => ?_
  refine .bind_same fun _ _ => ?_
  refine .bind_same fun output _ => ?_
  refine .bind_same fun _ _ => ?_
  refine .bind_same fun cwd _ => ?_
  refine .bind_same fun launchPrefix _ => ?_
  refine .pure fun hkeeps => ?_
  have hinner := haround fun text htext => hkeeps "ns" (by simp) text
    (Attributes.resolves_of_text? (Attributes.read_of_yields ha) hns text htext)
  have hcheck := checkBase_of_readName hname
  obtain ⟨hjoin, hroot⟩ := resolveName_of_checkBase around hcheck
  have hfull : f.Sends (around.resolveName name) (around'.resolveName name) := by
    rw [hjoin, (resolveName_of_checkBase around' hcheck).1]
    exact hinner.ns.join _
  refine ⟨?_, hfull, hroot, hinner.enterNode hfull, ?_⟩
  · simp only [mapNames, hfull.eq, hinner.ns.eq]
    rfl
  · cases isCleared
    · rfl
    · simp only [RosparamCommand.ClearsRenamed, hfull.eq]
      rfl

end NodeSpec

end
end LaunchFile
