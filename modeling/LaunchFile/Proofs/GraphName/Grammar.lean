import LaunchFile.Proofs.GraphName.Inner
import LaunchFile.Proofs.GraphName.Param
import Mathlib.Computability.Language

/-!
# Proofs/GraphName/Grammar — the names that are accepted, as a language

    name := ["~"] [ID] ("/" ID)* ["/"]        ID := [A-Za-z] [A-Za-z0-9_]*

The check goes through the pieces between slashes, with rules of their own for the first and for the
last. It accepts exactly the texts of this language that are not empty, the slash at the end only
where names may be empty (`checkChars_eq_ok_iff`), and what an accepted name resolves to is the same
name in every scope.
-/

namespace LaunchFile

namespace GraphName

open Computability

variable {allowEmpty : Bool} {cs first : List Char} {pieces : List (List Char)}

/-! ## The language of names -/

/-- The texts of one character of a set. -/
def oneOf (chars : Set Char) : Language Char :=
  {cs | ∃ c ∈ chars, cs = [c]}

/-- The characters from one to another. -/
def range (first last : Char) : Set Char :=
  {c | first ≤ c ∧ c ≤ last}

/-- The letters a name may begin with. -/
def letters : Set Char :=
  range 'A' 'Z' ∪ range 'a' 'z'

/-- The characters a name may go on with. -/
def wordChars : Set Char :=
  letters ∪ range '0' '9' ∪ {'_'}

/-- A letter, and any row of word characters behind it. -/
def identifiers : Language Char :=
  oneOf letters * (oneOf wordChars)∗

/-- What may stand at the end of a name: a slash, where it is admitted. -/
def endings (slashAtEnd : Bool) : Language Char :=
  if slashAtEnd then 1 + oneOf {'/'} else 1

/-- The names; the empty text is among them. -/
def names (slashAtEnd : Bool) : Language Char :=
  (1 + oneOf {'~'}) * (1 + identifiers) * (oneOf {'/'} * identifiers)∗ * endings slashAtEnd

/-! ## Identifiers -/

theorem mem_oneOf_singleton {c : Char} : cs ∈ oneOf {c} ↔ cs = [c] :=
  ⟨fun ⟨_, hd, hcs⟩ => Set.mem_singleton_iff.1 hd ▸ hcs, fun hcs => ⟨c, rfl, hcs⟩⟩

/-- A star of one character is a row of such characters. -/
theorem mem_kstar_oneOf {chars : Set Char} : cs ∈ (oneOf chars)∗ ↔ ∀ c ∈ cs, c ∈ chars := by
  rw [Language.mem_kstar]
  constructor
  · rintro ⟨parts, rfl, hparts⟩ c hc
    obtain ⟨part, hpart, hc⟩ := List.mem_flatten.1 hc
    obtain ⟨d, hd, rfl⟩ := hparts part hpart
    rwa [List.mem_singleton.1 hc]
  · intro h
    refine ⟨cs.map fun c => [c], ?_, fun part hpart => ?_⟩
    · rw [← List.flatMap_def, List.flatMap_singleton']
    · obtain ⟨c, hc, rfl⟩ := List.mem_map.1 hpart
      exact ⟨c, h c hc, rfl⟩

/-- Letters are those of the check. -/
theorem isAlpha_iff_mem_letters {c : Char} : c.isAlpha = true ↔ c ∈ letters := by
  change (decide ('A' ≤ c ∧ c ≤ 'Z') || decide ('a' ≤ c) && decide (c ≤ 'z')) = true ↔ _
  rw [Bool.or_eq_true, Bool.and_eq_true, decide_eq_true_eq, decide_eq_true_eq, decide_eq_true_eq]
  rfl

/-- Word characters are those of the check. -/
theorem isWord_iff_mem_wordChars {c : Char} :
    (c.isAlphanum || c == '_') = true ↔ c ∈ wordChars := by
  simp [Char.isAlphanum, isAlpha_iff_mem_letters, Char.isDigit, wordChars, range, Char.le_def,
    or_comm]

/-- Identifiers are those of the check. -/
theorem isIdentifier_iff_mem : isIdentifier cs = true ↔ cs ∈ identifiers := by
  rw [identifiers, Language.mem_mul]
  constructor
  · intro h
    cases cs with
    | nil => cases h
    | cons c cs =>
      rw [isIdentifier, Bool.and_eq_true, List.all_eq_true] at h
      exact ⟨[c], ⟨c, isAlpha_iff_mem_letters.1 h.1, rfl⟩, cs,
        mem_kstar_oneOf.2 fun d hd => isWord_iff_mem_wordChars.1 (h.2 d hd), rfl⟩
  · rintro ⟨_, ⟨c, hc, rfl⟩, rest, hrest, rfl⟩
    rw [List.singleton_append, isIdentifier, Bool.and_eq_true, List.all_eq_true]
    exact ⟨isAlpha_iff_mem_letters.2 hc,
      fun d hd => isWord_iff_mem_wordChars.2 (mem_kstar_oneOf.1 hrest d hd)⟩

/-! ## Pieces behind slashes -/

/-- The text of pieces, each behind a slash. -/
def slashed (pieces : List (List Char)) : List Char :=
  pieces.flatMap ('/' :: ·)

/-- Slashed identifiers are rows of them, each behind a slash. -/
theorem mem_kstar_slashed : cs ∈ (oneOf {'/'} * identifiers)∗ ↔
    ∃ pieces, (∀ p ∈ pieces, isIdentifier p = true) ∧ cs = slashed pieces := by
  rw [Language.mem_kstar]
  constructor
  · rintro ⟨parts, rfl, hparts⟩
    refine ⟨parts.map List.tail, ?_, ?_⟩
    · intro p hp
      obtain ⟨part, hpart, rfl⟩ := List.mem_map.1 hp
      obtain ⟨_, ⟨_, rfl, rfl⟩, piece, hpiece, rfl⟩ := Language.mem_mul.1 (hparts part hpart)
      exact isIdentifier_iff_mem.2 hpiece
    · rw [slashed, List.flatMap_map, ← List.flatMap_id']
      refine List.flatMap_congr fun part hpart => ?_
      obtain ⟨_, ⟨_, rfl, rfl⟩, piece, hpiece, rfl⟩ := Language.mem_mul.1 (hparts part hpart)
      rfl
  · rintro ⟨pieces, hpieces, rfl⟩
    refine ⟨pieces.map ('/' :: ·), List.flatMap_def, fun part hpart => ?_⟩
    obtain ⟨piece, hpiece, rfl⟩ := List.mem_map.1 hpart
    exact Language.append_mem_mul (mem_oneOf_singleton.2 rfl)
      (isIdentifier_iff_mem.1 (hpieces piece hpiece))

/-- Splitting undone: the first piece, and the others behind slashes. -/
theorem eq_append_slashed : ∀ {cs first : List Char} {rest : List (List Char)},
    Text.splitWhere (· == '/') cs = first :: rest → cs = first ++ slashed rest
  | [], _, _, h => by
    cases h
    rfl
  | c :: cs, first, rest, h => by
    obtain ⟨piece, pieces, hpieces⟩ : ∃ piece pieces,
        Text.splitWhere (· == '/') cs = piece :: pieces := by
      rw [Text.splitWhere_eq_splitOnP]
      exact List.exists_cons_of_ne_nil (List.splitOnP_ne_nil _ _)
    have ih := eq_append_slashed hpieces
    rw [Text.splitWhere, hpieces] at h
    split at h
    · rename_i hslash
      cases h
      rw [ih, eq_of_beq hslash]
      simp [slashed]
    · cases h
      rw [List.cons_append, ← ih]

/-- A slashed row is split into its pieces. -/
theorem splitWhere_append_slashed {rest : List (List Char)} (hfirst : '/' ∉ first)
    (hrest : ∀ p ∈ rest, '/' ∉ p) :
    Text.splitWhere (· == '/') (first ++ slashed rest) = first :: rest := by
  have hsplit {cs : List Char} (h : '/' ∉ cs) : cs.splitOnP (· == '/') = [cs] :=
    List.splitOnP_eq_singleton fun c hc => beq_eq_false_iff_ne.2 fun heq => h (heq ▸ hc)
  rw [Text.splitWhere_eq_splitOnP]
  induction rest generalizing first with
  | nil => rw [slashed, List.flatMap_nil, List.append_nil, hsplit hfirst]
  | cons piece rest ih =>
    obtain ⟨hpiece, hrest⟩ := List.forall_mem_cons.1 hrest
    rw [slashed, List.flatMap_cons, List.cons_append, ← slashed,
      List.splitOnP_append_cons _ _ (by rfl), hsplit hfirst, ih hpiece hrest,
      List.singleton_append]

/-! ## The check -/

/-- Identifiers pass the check of what is behind the first piece. -/
theorem checkRest_of_isIdentifier : ∀ {pieces : List (List Char)},
    (∀ p ∈ pieces, isIdentifier p = true) → checkRest allowEmpty pieces = .ok ()
  | [], _ => rfl
  | [piece], h => by
    have hpiece := h piece List.mem_cons_self
    simp [checkRest, hpiece, (mem_of_isIdentifier hpiece).1]
  | piece :: next :: rest, h => by
    obtain ⟨hpiece, hrest⟩ := List.forall_mem_cons.1 h
    rw [checkRest, if_pos hpiece, checkRest_of_isIdentifier hrest]
    exact List.cons_ne_nil _ _

/-- What passes that check are identifiers, with an empty piece at the end where one is allowed. -/
theorem exists_of_checkRest : ∀ {pieces : List (List Char)}, checkRest allowEmpty pieces = .ok () →
    ∃ front behind, pieces = front ++ behind ∧ (∀ p ∈ front, isIdentifier p = true) ∧
      (behind = [] ∨ allowEmpty = true ∧ behind = [[]])
  | [], _ => ⟨[], [], rfl, List.forall_mem_nil _, .inl rfl⟩
  | [piece], h => by
    rw [checkRest] at h
    split at h
    · rename_i hempty
      split at h
      · rename_i hallowed
        exact ⟨[], [piece], rfl, List.forall_mem_nil _,
          .inr ⟨hallowed, by rw [List.isEmpty_iff.1 hempty]⟩⟩
      · cases h
    · split at h
      · rename_i hpiece
        exact ⟨[piece], [], rfl, List.forall_mem_singleton.2 hpiece, .inl rfl⟩
      · cases h
  | piece :: next :: rest, h => by
    rw [checkRest] at h
    · split at h
      · rename_i hpiece
        obtain ⟨front, behind, heq, hfront, hbehind⟩ := exists_of_checkRest h
        exact ⟨piece :: front, behind, by rw [heq, List.cons_append],
          List.forall_mem_cons.2 ⟨hpiece, hfront⟩, hbehind⟩
      · cases h
    · exact List.cons_ne_nil _ _

/-- Behind the first slash stand identifiers, and nothing behind a last slash if that is
admitted. -/
theorem checkRest_eq_ok_iff : checkRest allowEmpty pieces = .ok () ↔
    ∃ front behind, pieces = front ++ behind ∧ (∀ p ∈ front, isIdentifier p = true) ∧
      (behind = [] ∨ allowEmpty = true ∧ behind = [[]]) := by
  refine ⟨exists_of_checkRest, ?_⟩
  rintro ⟨front, behind, rfl, hfront, rfl | ⟨rfl, rfl⟩⟩
  · rw [List.append_nil, checkRest_of_isIdentifier hfront]
  · rw [checkRest_append (List.cons_ne_nil _ _) hfront]
    rfl

/-! ## The check accepts the names -/

/-- The endings that are allowed. -/
theorem mem_endings_iff : cs ∈ endings allowEmpty ↔
    ∃ behind, cs = slashed behind ∧ (behind = [] ∨ allowEmpty = true ∧ behind = [[]]) := by
  cases allowEmpty with
  | false => simp [endings, slashed]
  | true =>
    rw [endings, if_pos rfl, Language.mem_add, Language.mem_one, mem_oneOf_singleton]
    simp [slashed, and_or_left, exists_or]

/-- The parts of a name. -/
theorem mem_names_iff : cs ∈ names allowEmpty ↔ ∃ tilde first pieces,
    (tilde = [] ∨ tilde = ['~']) ∧ (first = [] ∨ isIdentifier first = true) ∧
      checkRest allowEmpty pieces = .ok () ∧ cs = tilde ++ first ++ slashed pieces := by
  simp only [names, Language.mem_mul, Language.mem_add, Language.mem_one, mem_oneOf_singleton,
    ← isIdentifier_iff_mem, mem_kstar_slashed, mem_endings_iff, checkRest_eq_ok_iff]
  constructor
  · rintro ⟨_, ⟨_, ⟨tilde, htilde, first, hfirst, rfl⟩, _, ⟨front, hfront, rfl⟩, rfl⟩, _,
      ⟨behind, rfl, hbehind⟩, rfl⟩
    exact ⟨tilde, first, _, htilde, hfirst, ⟨front, behind, rfl, hfront, hbehind⟩, by
      rw [List.append_assoc, slashed, slashed, slashed, List.flatMap_append]⟩
  · rintro ⟨tilde, first, _, htilde, hfirst, ⟨front, behind, rfl, hfront, hbehind⟩, rfl⟩
    exact ⟨_, ⟨_, ⟨tilde, htilde, first, hfirst, rfl⟩, _, ⟨front, hfront, rfl⟩, rfl⟩, _,
      ⟨behind, rfl, hbehind⟩, by
        rw [List.append_assoc, slashed, slashed, slashed, List.flatMap_append]⟩

/-- A tilde in front, or none. -/
theorem exists_tilde (cs : List Char) :
    ∃ tilde, (tilde = [] ∨ tilde = ['~']) ∧ cs = tilde ++ dropTilde cs := by
  unfold dropTilde
  split
  · exact ⟨['~'], .inr rfl, rfl⟩
  · exact ⟨[], .inl rfl, rfl⟩

/-- A tilde in front is dropped, and nothing else. -/
theorem dropTilde_append {tilde : List Char} (htilde : tilde = [] ∨ tilde = ['~'])
    (hfirst : first = [] ∨ isIdentifier first = true) : dropTilde (tilde ++ first) = first := by
  rcases htilde with rfl | rfl
  · refine dropTilde_eq_self fun rest heq => ?_
    rw [List.nil_append] at heq
    rcases hfirst with rfl | hfirst
    · cases heq
    · have := toNat_of_isAlphanum ((mem_of_isIdentifier hfirst).2 '~' (heq ▸ List.mem_cons_self))
      simp at this
  · rfl

/-- **The check falls apart** into that of the first piece and that of the others. -/
theorem checkChars_of_splitWhere {rest : List (List Char)} (hne : cs ≠ [])
    (hsplit : Text.splitWhere (· == '/') cs = first :: rest) :
    checkChars allowEmpty cs = .ok () ↔
      (dropTilde first = [] ∨ isIdentifier (dropTilde first) = true) ∧
        checkRest allowEmpty rest = .ok () := by
  rw [checkChars, if_neg (by simpa using hne), hsplit]
  dsimp only
  rw [← List.isEmpty_iff, ← Bool.or_eq_true]
  split
  · rename_i hfirst
    simp [hfirst]
  · rename_i hfirst
    simp [hfirst]

/-- **The texts that are accepted are the names.** The empty text is one where it is admitted. -/
theorem checkChars_eq_ok_iff : checkChars allowEmpty cs = .ok () ↔
    cs = [] ∧ allowEmpty = true ∨ cs ≠ [] ∧ cs ∈ names allowEmpty := by
  by_cases hne : cs = []
  · subst hne
    cases allowEmpty <;> simp [checkChars]
  · simp only [hne, false_and, ne_eq, not_false_eq_true, true_and, false_or]
    rw [mem_names_iff]
    constructor
    · intro h
      obtain ⟨first, rest, hsplit⟩ : ∃ first rest,
          Text.splitWhere (· == '/') cs = first :: rest := by
        rw [Text.splitWhere_eq_splitOnP]
        exact List.exists_cons_of_ne_nil (List.splitOnP_ne_nil _ _)
      obtain ⟨hfirst, hrest⟩ := (checkChars_of_splitWhere hne hsplit).1 h
      obtain ⟨tilde, htilde, heq⟩ := exists_tilde first
      exact ⟨tilde, dropTilde first, rest, htilde, hfirst, hrest,
        by rw [← heq, ← eq_append_slashed hsplit]⟩
    · rintro ⟨tilde, first, pieces, htilde, hfirst, hpieces, rfl⟩
      have hslash {p : List Char} (hp : p = [] ∨ isIdentifier p = true) : '/' ∉ p := by
        rcases hp with rfl | hp
        · exact List.not_mem_nil
        · exact (isSegment_of_isIdentifier hp).2
      have hfront : '/' ∉ tilde ++ first := by
        rcases htilde with rfl | rfl
        · exact hslash hfirst
        · simpa using hslash hfirst
      have hbehind : ∀ p ∈ pieces, '/' ∉ p := fun p hp =>
        hslash (or_iff_not_imp_left.2 (isIdentifier_of_checkRest hpieces p hp))
      rw [checkChars_of_splitWhere hne (splitWhere_append_slashed hfront hbehind),
        dropTilde_append htilde hfirst]
      exact ⟨hfirst, hpieces⟩

end GraphName

namespace Scope

open GraphName (IsWellFormed)

variable {s : Scope} {name : String} {allowEmpty : Bool}

/-! ## Resolved names -/

/-- A well-formed name is absolute and stays as it is. -/
theorem resolveParamName_of_isWellFormed (s : Scope) (h : IsWellFormed name) :
    s.resolveParamName name = name := by
  have htrim := h.trimChars
  rw [h.isAbsolute.toList_eq, GraphName.absolute] at htrim
  rw [resolveParamName_of_isAnchored, resolveName_of_isWellFormed s h]
  rw [h.isAbsolute.toList_eq, GraphName.absolute, htrim]
  rfl

/-- What an accepted name resolves to does not depend on the names that the scope maps. -/
theorem isWellFormed_resolveName (hns : IsWellFormed s.ns)
    (hprivate : ∀ ns ∈ s.privateNs, IsWellFormed ns)
    (hcheck : GraphName.check allowEmpty name = .ok ()) : IsWellFormed (s.resolveName name) :=
  IsWellNamed.resolveName (s := { s with remaps := [] }) ⟨hns, hprivate, nofun⟩ hcheck

end Scope

/-- **The check accepts the names of the grammar and no other texts**, blanks around them apart.
What an accepted name resolves to, where namespaces are well formed, is a well-formed name that
stands for itself in every scope. -/
theorem GraphName.check_grammar (name : String) (allowEmpty : Bool) :
    (check allowEmpty name = .ok () ↔
      Text.trimChars name.toList = [] ∧ allowEmpty = true ∨
        Text.trimChars name.toList ≠ [] ∧ Text.trimChars name.toList ∈ names allowEmpty) ∧
    ∀ s : Scope, IsWellFormed s.ns → (∀ ns ∈ s.privateNs, IsWellFormed ns) →
      check allowEmpty name = .ok () →
        IsWellFormed (s.resolveName name) ∧
          ∀ t : Scope, t.resolveName (s.resolveName name) = s.resolveName name ∧
            t.resolveParamName (s.resolveName name) = s.resolveName name := by
  refine ⟨checkChars_eq_ok_iff, fun s hns hprivate hcheck => ?_⟩
  have hwell := Scope.isWellFormed_resolveName hns hprivate hcheck
  exact ⟨hwell, fun t => ⟨t.resolveName_of_isWellFormed hwell,
    t.resolveParamName_of_isWellFormed hwell⟩⟩

/-- A private namespace inside of a node, with blanks around it and a slash at its end. -/
theorem GraphName.check_grammar_private :
    let s : Scope := { Scope.root with ns := "/robot", privateNs := some "/robot/driver" }
    IsWellFormed s.ns ∧ (∀ ns ∈ s.privateNs, IsWellFormed ns) ∧
      check true " ~odom/x_1/ " = .ok () ∧
      Text.trimChars " ~odom/x_1/ ".toList ∈ names true ∧
      s.resolveName " ~odom/x_1/ " = "/robot/driver/odom/x_1" ∧
      IsWellFormed "/robot/driver/odom/x_1" ∧
      ∀ t : Scope, t.resolveName "/robot/driver/odom/x_1" = "/robot/driver/odom/x_1" ∧
        t.resolveParamName "/robot/driver/odom/x_1" = "/robot/driver/odom/x_1" := by
  intro s
  have hns : IsWellFormed s.ns := ⟨["robot".toList], by decide, by decide⟩
  have hprivate : ∀ ns ∈ s.privateNs, IsWellFormed ns := fun ns hns =>
    Option.mem_some_iff.1 hns ▸ ⟨["robot".toList, "driver".toList], by decide, by decide⟩
  have hcheck : check true " ~odom/x_1/ " = .ok () := by decide
  have hfull : s.resolveName " ~odom/x_1/ " = "/robot/driver/odom/x_1" := by decide
  obtain ⟨hiff, hresolve⟩ := check_grammar " ~odom/x_1/ " true
  have hnames := (hiff.1 hcheck).resolve_left fun h => absurd h.1 (by decide)
  exact ⟨hns, hprivate, hcheck, hnames.2, hfull, hfull ▸ hresolve s hns hprivate hcheck⟩

end LaunchFile
