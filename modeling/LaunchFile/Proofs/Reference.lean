import LaunchFile.Interpreter
import LaunchFile.Proofs.Path
import LaunchFile.Proofs.Reading
import LaunchFile.Proofs.Substitution.Plain
import LaunchFile.Proofs.Substitution.Written

/-!
# Proofs/Reference — references to files through `$(dirname)`

A relative reference starts at the directory of the current file. With `$(dirname)/` before it, its
text holds that directory and is a reference again: an absolute one if the file is absolute, so that
both name one file, but one that starts at the directory a second time if the file is relative.
Elements read alike when an attribute that names a file is written in another way
(`IncludeHead.read_withAttr` and its siblings).
-/

namespace LaunchFile

/-! ## An attribute written in another way -/

/-- The element with a text for an attribute. -/
def Element.withAttr (e : Element) (name text : String) : Element :=
  .mk e.tag (e.attrs.insert name text) e.children e.text e.location

namespace Element

variable (e : Element) (name text text' : String)

/-- The attribute has the text. -/
theorem attr?_withAttr_self : (e.withAttr name text).attr? name = some text :=
  Dict.get?_insert_self e.attrs name text

/-- All other attributes are as they were. -/
theorem attr?_withAttr_of_ne {other : String} (h : other ≠ name) :
    (e.withAttr name text').attr? other = (e.withAttr name text).attr? other :=
  (Dict.get?_insert_of_ne e.attrs text' h.symm).trans
    (Dict.get?_insert_of_ne e.attrs text h.symm).symm

/-- The same attributes are there. -/
theorem hasAttr_withAttr (other : String) :
    (e.withAttr name text').hasAttr other = (e.withAttr name text).hasAttr other := by
  by_cases h : other = name
  · subst h
    exact (congrArg Option.isSome (e.attr?_withAttr_self other text')).trans
      (congrArg Option.isSome (e.attr?_withAttr_self other text)).symm
  · exact congrArg Option.isSome (e.attr?_withAttr_of_ne name text text' h)

/-- The source of a parameter is the same. -/
theorem only_withAttr :
    ParamSource.only (e.withAttr name text') = ParamSource.only (e.withAttr name text) := by
  have hnamed : ParamSource.named (e.withAttr name text') =
      ParamSource.named (e.withAttr name text) :=
    List.filter_congr fun source _ => e.hasAttr_withAttr name text text' source.attr
  rw [ParamSource.only, ParamSource.only, hnamed]

end Element

/-- A well-formed attribute text that resolves to a text and leaves the made-up names alone. -/
def Segment.StandsFor (look : Lookups) (scope : Scope) (raw text : String) : Prop :=
  ∃ segments, parse raw = .ok segments ∧ resolveAll scope look segments = pure text

namespace Attributes

/-- Two rows of read attributes that differ at most in one of them. -/
def SameBut (name : String) (a a' : Attributes) : Prop :=
  ∀ other, other ≠ name → a'.get? other = a.get? other

namespace SameBut

variable {name other : String} {a a' : Attributes}

/-- One attribute more, the same on both sides. -/
theorem cons (h : SameBut name a a') (segments : List Segment) (key : String) :
    SameBut name ((key, segments) :: a) ((key, segments) :: a') := fun other hother => by
  rw [Entries.get?, Entries.get?, h other hother]

/-- One attribute more, which may differ. -/
theorem cons_self (h : SameBut name a a') (segments segments' : List Segment) :
    SameBut name ((name, segments) :: a) ((name, segments') :: a') := fun other hother => by
  have hne : ¬(name == other) = true := by simpa using Ne.symm hother
  rw [Entries.get?, Entries.get?, if_neg hne, if_neg hne, h other hother]

variable (look : Lookups) (scope : Scope)

/-- Any other attribute has the same text. -/
theorem text (h : SameBut name a a') (hother : other ≠ name) :
    a'.text look scope other = a.text look scope other := by
  rw [Attributes.text, Attributes.text, h other hother]

theorem text? (h : SameBut name a a') (hother : other ≠ name) :
    a'.text? look scope other = a.text? look scope other := by
  rw [Attributes.text?, Attributes.text?, h other hother]

theorem flag (h : SameBut name a a') (hother : other ≠ name) :
    a'.flag look scope other = a.flag look scope other := by
  rw [Attributes.flag, Attributes.flag, h.text? look scope hother]

end SameBut

section

variable {e : Element} {name raw raw' : String} {segments segments' : List Segment}

/-- What is read first, and what is read behind it. -/
theorem read_cons (e : Element) (w : Wanted) (rest : List Wanted) : read e (w :: rest) =
    match e.attr? w.name with
    | some text => do
      let segments ← split text
      let others ← read e rest
      return (w.name, segments) :: others
    | none =>
      match w with
      | .required name => Result.located e.location (Result.fail (.missingAttribute e.tag name))
      | .optional _ => read e rest := by
  cases w with
  | required n =>
    rw [read_required, Wanted.name, Element.required]
    cases e.attr? n <;> rfl
  | optional n =>
    rw [read_optional, Wanted.name]
    cases e.attr? n <;> rfl

/-- Results stay the same but for one attribute. -/
theorem SameBut.agree_cons {r r' : Result Attributes} (h : Except.Agree (SameBut name) r r')
    (key : String) (hkey : key ≠ name → segments' = segments) :
    Except.Agree (SameBut name) (do return (key, segments) :: (← r))
      (do return (key, segments') :: (← r')) := by
  rcases r with error | a <;> rcases r' with error' | a'
  · exact h
  · exact h.elim
  · exact h.elim
  · by_cases hname : key = name
    · subst hname
      exact SameBut.cons_self h segments segments'
    · rw [hkey hname]
      exact SameBut.cons h segments key

/-- Reading fails alike, whatever well-formed text an attribute has. -/
theorem read_withAttr (h : Segment.parse raw = .ok segments)
    (h' : Segment.parse raw' = .ok segments') : ∀ wanted : List Wanted,
    Except.Agree (SameBut name) (read (e.withAttr name raw) wanted)
      (read (e.withAttr name raw') wanted)
  | [] => fun _ _ => rfl
  | w :: rest => by
    have ih := read_withAttr h h' rest
    rw [read_cons, read_cons]
    by_cases hw : w.name = name
    · have hsplit : split raw = .ok segments := by rw [split, h]; rfl
      have hsplit' : split raw' = .ok segments' := by rw [split, h']; rfl
      rw [hw, e.attr?_withAttr_self, e.attr?_withAttr_self]
      simp only [hsplit, hsplit']
      exact SameBut.agree_cons ih name fun hne => absurd rfl hne
    · rw [e.attr?_withAttr_of_ne name raw raw' hw]
      cases (e.withAttr name raw).attr? w.name with
      | some text =>
        cases hsplit : split text with
        | error error =>
          simp only [hsplit]
          rfl
        | ok found =>
          simp only [hsplit]
          exact SameBut.agree_cons ih w.name fun _ => rfl
      | none =>
        cases w with
        | required n => rfl
        | optional n => exact ih

/-- **What is done with the attributes is the same** if it looks at the rewritten one only in ways
that do not tell its two texts apart. -/
theorem ask_bind_withAttr {look : Lookups} {α : Type} {k k' : Attributes → LaunchM α}
    {wanted : List Wanted}
    (h : Segment.parse raw = .ok segments) (h' : Segment.parse raw' = .ok segments')
    (hk : ∀ a a', read (e.withAttr name raw) wanted = .ok a →
      read (e.withAttr name raw') wanted = .ok a' → SameBut name a a' → k' a' = k a) :
    ask look (e.withAttr name raw') wanted >>= k' =
      ask look (e.withAttr name raw) wanted >>= k := by
  rw [ask_eq, ask_eq]
  have hagree : Except.Agree (SameBut name) (read (e.withAttr name raw) wanted)
      (read (e.withAttr name raw') wanted) := read_withAttr h h' wanted
  rcases hread : read (e.withAttr name raw) wanted with error | a <;>
    rcases hread' : read (e.withAttr name raw') wanted with error' | a' <;>
    rw [hread, hread'] at hagree
  · rw [show error = error' from hagree]
    rfl
  · exact hagree.elim
  · exact hagree.elim
  · exact hk a a' hread hread' hagree

end
end Attributes

/-! ## Two texts of one file -/

section

variable {look : Lookups} {scope : Scope} {e : Element} {raw text raw' text' : String}

open Attributes

/-- An attribute that stands for a text resolves to it. -/
theorem Segment.StandsFor.found {name : String} {wanted : List Wanted} {a : Attributes}
    (h : StandsFor look scope raw text) (hread : read (e.withAttr name raw) wanted = .ok a)
    (hmem : name ∈ wanted.map Wanted.name) :
    a.text look scope name = pure text ∧ a.text? look scope name = pure (some text) := by
  obtain ⟨segments, hparse, hresolve⟩ := h
  have hsome : (a.get? name).isSome = ((e.withAttr name raw).attr? name).isSome :=
    contains_of_read hread hmem
  have hget : a.get? name = some segments := by
    rw [e.attr?_withAttr_self] at hsome
    obtain ⟨found, hfound⟩ := Option.isSome_iff_exists.1 hsome
    obtain ⟨raw', hraw', hparse'⟩ := exists_of_read hread hfound
    rw [e.attr?_withAttr_self] at hraw'
    cases hraw'
    rw [hfound, Except.ok.inj (hparse'.symm.trans hparse)]
  have htext : textOf look scope segments = pure text := by
    rw [textOf, hresolve]
    rfl
  constructor
  · rw [Attributes.text, hget, Option.getD_some, htext]
  · rw [Attributes.text?, hget]
    simp only [htext]
    rfl

variable (h : Segment.StandsFor look scope raw text) (h' : Segment.StandsFor look scope raw' text')
  (hpath : scope.resolvePath text' = scope.resolvePath text)

include h h' hpath

/-- An include reads alike whichever text names its file. -/
theorem IncludeHead.read_withAttr :
    IncludeHead.read look scope (e.withAttr "file" raw') =
      IncludeHead.read look scope (e.withAttr "file" raw) := by
  obtain ⟨segments, hparse, -⟩ := id h
  obtain ⟨segments', hparse', -⟩ := id h'
  refine ask_bind_withAttr hparse hparse' fun a a' hread hread' hsame => ?_
  have htext := (h.found hread (by decide)).1
  have htext' := (h'.found hread' (by decide)).1
  have hcleared : enterCleared look scope a' (e.withAttr "file" raw') =
      enterCleared look scope a (e.withAttr "file" raw) := by
    rw [enterCleared, enterCleared, hsame.text? look scope (by decide),
      hsame.flag look scope (by decide)]
    rfl
  rw [htext, htext', hcleared, hsame.flag look scope (by decide)]
  simp only [pure_bind, hpath]

/-- A `<param>` that reads a file is read to the same, whichever of the two texts its source has. -/
theorem readSetting_withAttr {w : World} (hlook : look = w.look) (source : ParamSource)
    (hfile : source = .textfile ∨ source = .binfile) :
    readSetting w scope (e.withAttr source.attr raw') =
      readSetting w scope (e.withAttr source.attr raw) := by
  subst hlook
  obtain ⟨segments, hparse, -⟩ := id h
  obtain ⟨segments', hparse', -⟩ := id h'
  rw [readSetting, readSetting, e.only_withAttr source.attr raw raw']
  refine bind_congr fun only => ?_
  refine ask_bind_withAttr hparse hparse' fun a a' hread hread' hsame => ?_
  have hname : "name" ≠ source.attr := by rcases hfile with rfl | rfl <;> decide
  have htype : "type" ≠ source.attr := by rcases hfile with rfl | rfl <;> decide
  rw [hsame.text w.look scope hname, hsame.text? w.look scope htype]
  by_cases honly : only = source
  · subst honly
    have htext := (h.found hread (by simp [Wanted.name])).1
    have htext' := (h'.found hread' (by simp [Wanted.name])).1
    have hvalue : ∀ type, only.valueOf w scope type text' = only.valueOf w scope type text := by
      intro type
      rcases hfile with rfl | rfl <;> simp only [ParamSource.valueOf, hpath]
    simp only [htext, htext', pure_bind, hvalue]
  · have hattr : only.attr ≠ source.attr := by
      rcases hfile with rfl | rfl <;> cases only <;> first | decide | exact absurd rfl honly
    rw [hsame.text w.look scope hattr]

/-- A parameter reads alike whichever text names the file of its value. -/
theorem readParam_withAttr {w : World} (hlook : look = w.look) (source : ParamSource)
    (hfile : source = .textfile ∨ source = .binfile) :
    readParam w scope (e.withAttr source.attr raw') =
      readParam w scope (e.withAttr source.attr raw) := by
  rw [readParam, readParam, readSetting_withAttr h h' hpath hlook source hfile]
  rfl

/-- A `<rosparam>` reads alike whichever text names its file. -/
theorem RosparamCommand.read_withAttr :
    RosparamCommand.read look scope (e.withAttr "file" raw') =
      RosparamCommand.read look scope (e.withAttr "file" raw) := by
  obtain ⟨segments, hparse, -⟩ := id h
  obtain ⟨segments', hparse', -⟩ := id h'
  refine ask_bind_withAttr hparse hparse' fun a a' hread hread' hsame => ?_
  have htext := (h.found hread (by decide)).2
  have htext' := (h'.found hread' (by decide)).2
  have hloaded : loadedText look scope a' (e.withAttr "file" raw') =
      loadedText look scope a (e.withAttr "file" raw) := by
    rw [loadedText, loadedText, hsame.flag look scope (by decide)]
    rfl
  rw [hsame.text? look scope (by decide), hsame.text? look scope (by decide),
    hsame.text? look scope (by decide), htext, htext', hloaded]
  simp only [pure_bind, hpath, Option.map_some]
  rfl

end

/-! ## The directory before a reference -/

namespace Segment

/-- A plain reference stands for itself. -/
theorem standsFor_of_isPlain {reference : String} (h : IsPlain reference.toList) (look : Lookups)
    (scope : Scope) : StandsFor look scope reference reference :=
  ⟨[.text reference], parse_of_isPlain h,
    congrArg (pure : String → ResolveM String) String.append_empty⟩

/-- A reference with the directory in front stands for the joined one. -/
theorem standsFor_dirname {scope : Scope} {directory : Path}
    (hdirectory : scope.directory = some directory) {reference : String}
    (h : IsPlain reference.toList) (look : Lookups) : StandsFor look scope
      ("$(dirname)/" ++ reference) (directory.text ++ "/" ++ reference) := by
  have hplain : IsPlain ('/' :: reference.toList) := List.forall_mem_cons.2 ⟨by decide, h⟩
  refine ⟨[.dirname, .text ("/" ++ reference)], ?_, ?_⟩
  · have htext : ("$(dirname)/" ++ reference).toList =
        written .dirname ++ '/' :: reference.toList := by simp [written, directive]
    have hwellFormed : Segment.dirname.IsWellFormed := trivial
    rw [parse, htext, segments_written _ _ _ _ _ hwellFormed rfl, segments_of_isPlain _ hplain]
    simp [prepend, Except.map]
  · have hfirst : resolve scope look .dirname = pure directory.text := by
      rw [resolve, hdirectory]
      rfl
    rw [resolveAll, resolveAll, resolveAll, hfirst, resolve]
    simp only [pure_bind, String.append_empty, String.append_assoc]

end Segment

/-- **A reference through `$(dirname)` is the relative reference itself**, in a file with an
absolute path: it names the same file in every place where an element names one, whatever else the
element holds. -/
theorem dirname_reference {p : Path} (habsolute : p.isAbsolute = true)
    (hroot : p.normalize.text ≠ "/") {scope : Scope} (hfile : scope.file = some p.normalize)
    {reference : String} (hrelative : Path.isAbsolute ⟨reference⟩ = false)
    (htrim : Text.trim reference = reference) (hplain : Segment.IsPlain reference.toList)
    (w : World) (e : Element) :
    (∃ text, Segment.evaluate scope w.look ("$(dirname)/" ++ reference) = pure text ∧
      scope.resolvePath text = scope.resolvePath reference) ∧
    IncludeHead.read w.look scope (e.withAttr "file" ("$(dirname)/" ++ reference)) =
      IncludeHead.read w.look scope (e.withAttr "file" reference) ∧
    readParam w scope (e.withAttr "textfile" ("$(dirname)/" ++ reference)) =
      readParam w scope (e.withAttr "textfile" reference) ∧
    readParam w scope (e.withAttr "binfile" ("$(dirname)/" ++ reference)) =
      readParam w scope (e.withAttr "binfile" reference) ∧
    RosparamCommand.read w.look scope (e.withAttr "file" ("$(dirname)/" ++ reference)) =
      RosparamCommand.read w.look scope (e.withAttr "file" reference) := by
  have hstart : p.normalize.isAbsolute = true := by
    rw [Path.isAbsolute, Path.normalize, String.toList_ofList, Path.absoluteChars_normalizeChars]
    exact habsolute
  have hsteps : Path.stepsOf p.normalize.text.toList ≠ [] := by
    intro hnil
    have htext : p.normalize.text.toList = "/".toList := by
      refine (Path.isNormal_normalize p).toList_eq.trans ?_
      rw [← Path.isAbsolute, hstart, hnil]
      rfl
    exact hroot (String.toList_inj.1 htext)
  obtain ⟨directory, hparent, hdirectory⟩ := Path.exists_parent? hstart hsteps
  have hscope : scope.directory = some directory := by
    rw [Scope.directory, hfile, Option.bind_some, hparent]
  have hplainly := Segment.standsFor_of_isPlain hplain w.look scope
  have hthrough := Segment.standsFor_dirname hscope hplain w.look
  have hpath : scope.resolvePath (directory.text ++ "/" ++ reference) =
      scope.resolvePath reference := by
    rw [Scope.resolvePath, Scope.resolvePath, hscope]
    exact Path.resolve_directory_append hdirectory hrelative htrim
  obtain ⟨segments, hparse, hresolve⟩ := id hthrough
  refine ⟨⟨_, ?_, hpath⟩, ?_, ?_, ?_, ?_⟩
  · rw [Attributes.evaluate_of_parse hparse, hresolve]
  · exact IncludeHead.read_withAttr hplainly hthrough hpath
  · exact readParam_withAttr hplainly hthrough hpath rfl .textfile (.inl rfl)
  · exact readParam_withAttr hplainly hthrough hpath rfl .binfile (.inr rfl)
  · exact RosparamCommand.read_withAttr hplainly hthrough hpath

/-- A file in a directory that is written with a dot. -/
theorem dirname_reference_inner :
    let p : Path := ⟨"/ws/./launch/main.launch"⟩
    let scope := topScope (some p.normalize) []
    let w : World := ⟨⟨fun _ => none, fun _ => none⟩, MemoryFiles.toFiles [], true, "noetic"⟩
    let e : Element := .mk "include" (.ofPairs [("ns", "left")]) [] none ⟨none, 1, 1⟩
    p.isAbsolute = true ∧ p.normalize.text ≠ "/" ∧ scope.file = some p.normalize ∧
      Path.isAbsolute ⟨"inner.launch"⟩ = false ∧ Text.trim "inner.launch" = "inner.launch" ∧
      Segment.IsPlain "inner.launch".toList ∧
      IncludeHead.read w.look scope (e.withAttr "file" ("$(dirname)/" ++ "inner.launch")) =
        IncludeHead.read w.look scope (e.withAttr "file" "inner.launch") := by
  intro p scope w e
  have habsolute : p.isAbsolute = true := by decide +kernel
  have hroot : p.normalize.text ≠ "/" := by decide +kernel
  have hrelative : Path.isAbsolute ⟨"inner.launch"⟩ = false := by decide +kernel
  have htrim : Text.trim "inner.launch" = "inner.launch" := by decide +kernel
  have hplain : Segment.IsPlain "inner.launch".toList := by decide +kernel
  exact ⟨habsolute, hroot, rfl, hrelative, htrim, hplain,
    (dirname_reference habsolute hroot rfl hrelative htrim hplain w e).2.1⟩

/-- In a file with a relative path the directory stands before the reference twice, and where there
is none, a slash does. -/
theorem dirname_reference_relative :
    let path (file reference : String) : Option Path :=
      let scope := topScope (some (Path.normalize ⟨file⟩)) []
      let look : Lookups := ⟨fun _ => none, fun _ => none⟩
      let e : Element := .mk "include" .empty [] none ⟨none, 1, 1⟩
      (outcome (IncludeHead.read look scope (e.withAttr "file" reference))
        AnonRegistry.empty).1.toOption.map IncludeHead.path
    path "launch/main.launch" "inner.launch" = some ⟨"launch/inner.launch"⟩ ∧
      path "launch/main.launch" "$(dirname)/inner.launch" = some ⟨"launch/launch/inner.launch"⟩ ∧
      path "main.launch" "inner.launch" = some ⟨"inner.launch"⟩ ∧
      path "main.launch" "$(dirname)/inner.launch" = some ⟨"/inner.launch"⟩ := by
  decide +kernel

end LaunchFile
