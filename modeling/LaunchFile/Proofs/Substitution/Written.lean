import LaunchFile.Proofs.Text.Parens
import LaunchFile.Proofs.Text.Words
import LaunchFile.Substitution.Segment
import Mathlib.Data.List.Chain

/-!
# Proofs/Substitution/Written — segments as texts

`render` writes a row of segments as an attribute text: literal text with every dollar doubled, and
directives in parentheses. Literal text is read back with the parentheses in it counted
(`segments_escape`), a directive as itself (`segments_written`), and so is a row of them, when no
two texts stand side by side (`segments_writtenAll`).
-/

namespace LaunchFile.Segment

/-! ## Written form -/

/-- Literal text with every dollar doubled. -/
def escape (cs : List Char) : List Char :=
  cs.flatMap fun c => if c = '$' then ['$', '$'] else [c]

/-- A directive with this content. -/
def directive (content : List Char) : List Char :=
  '$' :: '(' :: content ++ [')']

mutual

/-- The written form of a segment; the dollars of a text are doubled. -/
def written : Segment → List Char
  | .text s => escape s.toList
  | .arg name => directive ("arg".toList ++ ' ' :: name.toList)
  | .env name => directive ("env".toList ++ ' ' :: name.toList)
  | .find package => directive ("find".toList ++ ' ' :: package.toList)
  | .anon seed => directive ("anon".toList ++ ' ' :: seed.toList)
  | .optenv name none => directive ("optenv".toList ++ ' ' :: name.toList)
  | .optenv name (some fallback) =>
    directive ("optenv".toList ++ ' ' :: (name.toList ++ ' ' :: fallback.toList))
  | .dirname => directive "dirname".toList
  | .eval parts => directive ("eval".toList ++ ' ' :: writtenAll parts)

/-- The written forms of a row of segments, one behind the other. -/
def writtenAll : List Segment → List Char
  | [] => []
  | segment :: segments => written segment ++ writtenAll segments

end

/-- The attribute text of a row of segments. -/
def render (segments : List Segment) : String :=
  String.ofList (writtenAll segments)

/-! ## Canonical rows -/

/-- Whether a segment is a plain text. -/
def isText : Segment → Bool
  | .text _ => true
  | _ => false

/-- Whether a segment is an expression. -/
def isEval : Segment → Bool
  | .eval _ => true
  | _ => false

/-- The literal characters of a segment. -/
def literal : Segment → List Char
  | .text s => s.toList
  | _ => []

/-- No directive begins and none ends in the text. -/
def IsInside (cs : List Char) : Prop :=
  ')' ∉ cs ∧ Text.occurs ['$', '('] cs = false

instance (cs : List Char) : Decidable (IsInside cs) :=
  inferInstanceAs (Decidable (_ ∧ _))

/-- What an argument of a directive may be. -/
def IsArgument (name : String) : Prop :=
  Text.IsWord name.toList ∧ IsInside name.toList

/-- What the fallback of `$(optenv …)` may be. -/
def IsFallback (fallback : String) : Prop :=
  fallback ≠ "" ∧ Text.trim fallback = fallback ∧ IsInside fallback.toList

/-- A segment whose written form is read as it. Expressions are written in several ways and left
out. -/
def IsWellFormed : Segment → Prop
  | .text s => s ≠ ""
  | .arg name | .env name | .find name | .anon name | .optenv name none => IsArgument name
  | .optenv name (some fallback) => IsArgument name ∧ IsFallback fallback
  | .dirname => True
  | .eval _ => False

/-- A row of segments that some text is read as, other than the empty text. -/
structure IsProper (segments : List Segment) : Prop where
  ne_nil : segments ≠ []
  wellFormed : ∀ segment ∈ segments, segment.IsWellFormed
  apart : segments.IsChain fun segment next => segment.isText = true → next.isText = false
  closes : ∀ front, front <+: segments.flatMap literal → front.count ')' ≤ front.count '('

/-- A row that some text is read as: one empty text, or a proper row. -/
def IsCanonical (segments : List Segment) : Prop :=
  segments = [.text ""] ∨ IsProper segments

/-! ## Literal text -/

/-- The parentheses that are open behind a literal character; in an expression they do not count. -/
def literalStep? (inEval : Bool) (depth : Nat) (c : Char) : Option Nat :=
  if inEval then some depth else Text.parenStep? (· == '(') (· == ')') depth c

/-- How many parentheses are open behind a text, if none is closed that was not opened. -/
def depthAfter? (inEval : Bool) (depth : Nat) (cs : List Char) : Option Nat :=
  cs.foldlM (literalStep? inEval) depth

/-- Inside of an expression parentheses are not counted. -/
theorem depthAfter?_true (depth : Nat) : ∀ cs : List Char, depthAfter? true depth cs = some depth
  | [] => rfl
  | _ :: cs => depthAfter?_true depth cs

/-- Two dollars are read as one. -/
theorem segments_dollars (whole : String) (inEval : Bool) (depth : Nat) (pending cs : List Char) :
    segments whole inEval depth pending ('$' :: '$' :: cs) =
      segments whole inEval depth ('$' :: pending) cs := by
  rw [segments]

/-- Any other character is read as a literal, if it is one. -/
theorem segments_char (whole : String) (inEval : Bool) (depth : Nat) (pending : List Char)
    {c : Char} (hc : c ≠ '$') (cs : List Char) :
    segments whole inEval depth pending (c :: cs) =
      match literalStep? inEval depth c with
      | none => .error (.invalid whole .unmatchedParen)
      | some depth' => segments whole inEval depth' (c :: pending) cs := by
  rw [segments.eq_def]
  split
  · rename_i heq
    cases heq
  · rename_i heq
    exact absurd (List.cons.inj heq).1 hc
  · rename_i heq
    exact absurd (List.cons.inj heq).1 hc
  · rename_i heq
    cases heq
    cases inEval with
    | true => rfl
    | false =>
      simp only [literalStep?, Text.parenStep?, Bool.false_eq_true, if_false]
      split
      · rfl
      split
      · cases depth <;> rfl
      · rfl

/-- Escaped text is collected as it was. -/
theorem segments_escape (whole : String) (inEval : Bool) :
    ∀ {cs pending : List Char} {depth depth' : Nat} (behind : List Char),
      depthAfter? inEval depth cs = some depth' →
      segments whole inEval depth pending (escape cs ++ behind) =
        segments whole inEval depth' (cs.reverse ++ pending) behind
  | [], pending, depth, depth', behind, h => by
    cases h
    rfl
  | c :: cs, pending, depth, depth', behind, h => by
    obtain ⟨between, hstep, hrest⟩ := Option.bind_eq_some_iff.1 h
    have ih : segments whole inEval between (c :: pending) (escape cs ++ behind) =
        segments whole inEval depth' (cs.reverse ++ c :: pending) behind :=
      segments_escape whole inEval behind hrest
    have hreverse : (c :: cs).reverse ++ pending = cs.reverse ++ c :: pending := by simp
    rw [hreverse, ← ih]
    by_cases hc : c = '$'
    · subst hc
      have hbetween : between = depth := by
        cases inEval <;> exact (Option.some.inj hstep).symm
      rw [hbetween]
      exact segments_dollars whole inEval depth pending _
    · have hescape : escape (c :: cs) = c :: escape cs := by
        rw [escape, List.flatMap_cons, if_neg hc]
        rfl
      rw [hescape, List.cons_append, segments_char whole inEval depth pending hc, hstep]

/-! ## Directives -/

/-- What is in front of the stop is split off. -/
theorem splitAt?_append {stop : Char} {cs : List Char} (h : stop ∉ cs) (behind : List Char) :
    splitAt? stop (cs ++ stop :: behind) = some (cs, behind) := by
  induction cs with
  | nil => simp [splitAt?]
  | cons c cs ih =>
    have hc : c ≠ stop := fun heq => h (heq ▸ List.mem_cons_self)
    rw [List.cons_append, splitAt?, if_neg (by simpa using hc),
      ih fun hmem => h (List.mem_cons_of_mem _ hmem)]
    rfl

/-- What is split off does not hold the stop. -/
theorem splitAt?_eq_some {stop : Char} {cs taken behind : List Char}
    (h : splitAt? stop cs = some (taken, behind)) :
    cs = taken ++ stop :: behind ∧ stop ∉ taken := by
  induction cs generalizing taken with
  | nil => cases h
  | cons c cs ih =>
    rw [splitAt?] at h
    split at h
    · rename_i hc
      cases h
      exact ⟨by rw [eq_of_beq hc]; rfl, List.not_mem_nil⟩
    · rename_i hc
      obtain ⟨⟨front, rest⟩, hsplit, heq⟩ := Option.map_eq_some_iff.1 h
      cases heq
      obtain ⟨rfl, hnotMem⟩ := ih hsplit
      exact ⟨rfl, by simp [hnotMem, Ne.symm (by simpa using hc : c ≠ stop)]⟩

/-- What a directive is read as. -/
def readCut (whole : String) : Cut → Except SubstitutionError Segment
  | .eval expression _ => (segments whole true 0 [] expression).map .eval
  | .simple content _ => simple whole content

/-- A directive that is not closed at the start of a text is its error. -/
theorem parse_of_cut_error {text : String} {cs : List Char} {e : SubstitutionError}
    (htext : text.toList = '$' :: '(' :: cs) (hcut : cut text cs = .error e) :
    parse text = .error e := by
  rw [parse, htext, segments]
  split
  · rename_i heq
    cases hcut.symm.trans heq
    rfl
  · rename_i heq
    cases hcut.symm.trans heq
  · rename_i heq
    cases hcut.symm.trans heq

/-- A directive is read, and then what stands behind it. -/
theorem segments_of_cut {whole : String} {cs : List Char} {found : Cut} {segment : Segment}
    (hcut : cut whole cs = .ok found) (hsegment : readCut whole found = .ok segment)
    (inEval : Bool) (depth : Nat) (pending : List Char) :
    segments whole inEval depth pending ('$' :: '(' :: cs) =
      (segments whole inEval depth [] found.rest).map (prepend pending ∘ (segment :: ·)) := by
  rw [segments]
  split
  · rename_i heq
    rw [hcut] at heq
    cases heq
  · rename_i expression rest heq
    cases hcut.symm.trans heq
    rw [readCut] at hsegment
    cases hparts : segments whole true 0 [] expression with
    | error e =>
      rw [hparts] at hsegment
      cases hsegment
    | ok parts =>
      rw [hparts] at hsegment
      cases hsegment
      rfl
  · rename_i content rest heq
    cases hcut.symm.trans heq
    rw [readCut] at hsegment
    rw [hsegment]
    rfl

/-- A directive is cut off behind its content, when it is none of `$(eval …)`. -/
theorem cut_directive (whole : String) {kind : List Char} (hkind : Text.IsWord kind)
    (heval : kind ≠ "eval".toList) {tail : List Char}
    (htail : ∀ c ∈ tail.head?, Text.isBlank c = true) (hinside : IsInside (kind ++ tail))
    (behind : List Char) :
    cut whole (kind ++ tail ++ ')' :: behind) = .ok (.simple (kind ++ tail) behind) := by
  have hword : ((kind ++ (tail ++ ')' :: behind)).takeWhile
      fun c => !(Text.isBlank c || c == ')')) = kind := by
    have hclose : ∀ c ∈ kind, c ≠ ')' := fun c hc heq =>
      hinside.1 (List.mem_append_left _ (heq ▸ hc))
    rw [List.takeWhile_append_of_pos fun c hc => by simp [hkind.2 c hc, hclose c hc]]
    cases tail with
    | nil => simp
    | cons c tail => simp [htail c rfl]
  unfold cut
  rw [List.append_assoc, Text.trimStartChars_append_of_isWord hkind]
  simp only [hword]
  rw [if_neg (by simpa using heval), ← List.append_assoc, splitAt?_append hinside.1]
  simp [hinside.2]

/-- The directives that take one argument, and the segments for them. -/
def oneArgKinds : List (String × (String → Segment)) :=
  [("arg", .arg), ("env", .env), ("find", .find), ("anon", .anon)]

/-- The words with which a directive begins, other than `$(eval …)`. -/
def kinds : List String :=
  oneArgKinds.map (·.1) ++ ["optenv", "dirname"]

/-- A name of a kind of directive: a word by itself. -/
structure IsKind (kind : String) : Prop where
  word : Text.IsWord kind.toList
  inside : IsInside kind.toList
  ne_eval : kind.toList ≠ "eval".toList

/-- All kinds are named by words. -/
theorem isKind_of_mem {kind : String} (h : kind ∈ kinds) : IsKind kind := by
  have hall : ∀ kind ∈ kinds,
      Text.IsWord kind.toList ∧ IsInside kind.toList ∧ kind.toList ≠ "eval".toList := by decide
  obtain ⟨hword, hinside, hne⟩ := hall kind h
  exact ⟨hword, hinside, hne⟩

/-- Texts inside of parentheses may be put together with a blank. -/
theorem IsInside.append_cons {before behind : List Char} (hbefore : IsInside before)
    (hbehind : IsInside behind) : IsInside (before ++ ' ' :: behind) := by
  refine ⟨by simp [hbefore.1, hbehind.1], ?_⟩
  rw [Text.occurs_pair_append_cons (by decide) (by decide), hbefore.2, hbehind.2]
  rfl

/-- The first word of a content is its kind. -/
theorem words_arguments {kind : String} (hkind : IsKind kind) (args : List Char) :
    Text.words (kind.toList ++ ' ' :: args) = kind.toList :: Text.words args :=
  Text.words_append_cons hkind.word rfl args

/-- What stands behind the name is the fallback. -/
theorem optenvFallback_append {kind name : List Char} (hkind : Text.IsWord kind)
    (hname : Text.IsWord name) (tail : List Char) :
    optenvFallback kind name (kind ++ ' ' :: (name ++ tail)) =
      if (Text.trimChars tail).isEmpty then none
      else some (String.ofList (Text.trimChars tail)) := by
  have hbehind : Text.trimStartChars (' ' :: (name ++ tail)) = name ++ tail := by
    rw [Text.trimStartChars_cons rfl, Text.trimStartChars_append_of_isWord hname]
  rw [optenvFallback, Text.trimStartChars_append_of_isWord hkind]
  simp only [List.drop_left, hbehind]

/-- A kind with one argument is read by the rule for it. -/
theorem simple_oneArg (whole : String) {kind : String} {make : String → Segment}
    (hkind : (kind, make) ∈ oneArgKinds) {content : List Char} {args : List (List Char)}
    (hwords : Text.words content = kind.toList :: args) :
    simple whole content = (oneArg whole kind.toList args).map make := by
  rw [simple, hwords]
  simp only [oneArgKinds, List.mem_cons, Prod.mk.injEq, List.not_mem_nil, or_false] at hkind
  rcases hkind with ⟨rfl, rfl⟩ | ⟨rfl, rfl⟩ | ⟨rfl, rfl⟩ | ⟨rfl, rfl⟩ <;> simp

/-- A look-up with a fallback takes all behind the name as its fallback. -/
theorem simple_optenv (whole : String) {content name : List Char} {args : List (List Char)}
    (hwords : Text.words content = "optenv".toList :: name :: args) : simple whole content =
      .ok (.optenv (String.ofList name) (optenvFallback "optenv".toList name content)) := by
  rw [simple, hwords]
  simp

section

variable (whole : String) (inEval : Bool) (depth : Nat) (pending behind : List Char)

/-- A directive with arguments is read as what its content stands for. -/
theorem segments_directive {kind : String} {args : List Char} {segment : Segment}
    (hkind : kind ∈ kinds) (hargs : IsInside args)
    (hsimple : simple whole (kind.toList ++ ' ' :: args) = .ok segment) :
    segments whole inEval depth pending (directive (kind.toList ++ ' ' :: args) ++ behind) =
      (segments whole inEval depth [] behind).map (prepend pending ∘ (segment :: ·)) := by
  have hk := isKind_of_mem hkind
  have htail : ∀ c ∈ (' ' :: args).head?, Text.isBlank c = true := by simp [Text.isBlank]
  have hcut := cut_directive whole hk.word hk.ne_eval htail (hk.inside.append_cons hargs) behind
  have hdirective : directive (kind.toList ++ ' ' :: args) ++ behind =
      '$' :: '(' :: (kind.toList ++ ' ' :: args ++ ')' :: behind) := by simp [directive]
  rw [hdirective]
  exact segments_of_cut hcut hsimple inEval depth pending

/-- A directive that takes one argument. -/
theorem segments_oneArg {kind name : String} {make : String → Segment}
    (hkind : (kind, make) ∈ oneArgKinds) (hname : IsArgument name) :
    segments whole inEval depth pending (directive (kind.toList ++ ' ' :: name.toList) ++ behind) =
      (segments whole inEval depth [] behind).map (prepend pending ∘ (make name :: ·)) := by
  have hmem : kind ∈ kinds := List.mem_append_left _ (List.mem_map_of_mem hkind)
  refine segments_directive whole inEval depth pending behind hmem hname.2 ?_
  rw [simple_oneArg whole hkind (words_arguments (isKind_of_mem hmem) _),
    Text.words_of_isWord hname.1, oneArg, String.ofList_toList]
  rfl

/-- **A written directive is read back.** -/
theorem segments_written : ∀ {segment : Segment}, segment.IsWellFormed → segment.isText = false →
    segments whole inEval depth pending (written segment ++ behind) =
      (segments whole inEval depth [] behind).map (prepend pending ∘ (segment :: ·))
  | .text _, _, htext => nomatch htext
  | .eval _, h, _ => h.elim
  | .arg _, h, _ => segments_oneArg whole inEval depth pending behind (by simp [oneArgKinds]) h
  | .env _, h, _ => segments_oneArg whole inEval depth pending behind (by simp [oneArgKinds]) h
  | .find _, h, _ => segments_oneArg whole inEval depth pending behind (by simp [oneArgKinds]) h
  | .anon _, h, _ => segments_oneArg whole inEval depth pending behind (by simp [oneArgKinds]) h
  | .optenv name none, h, _ => by
    have hkind : IsKind "optenv" := isKind_of_mem (by decide)
    have hfallback := optenvFallback_append hkind.word h.1 []
    rw [List.append_nil] at hfallback
    refine segments_directive whole inEval depth pending behind (by decide) h.2 ?_
    rw [simple_optenv whole ((words_arguments hkind _).trans
      (congrArg _ (Text.words_of_isWord h.1))), hfallback, String.ofList_toList]
    rfl
  | .optenv name (some fallback), h, _ => by
    obtain ⟨hname, hne, htrim, hinside⟩ := h
    have hkind : IsKind "optenv" := isKind_of_mem (by decide)
    have hfallback := optenvFallback_append hkind.word hname.1 (' ' :: fallback.toList)
    have htrimmed : Text.trimChars fallback.toList = fallback.toList := by
      rw [← String.toList_ofList (l := Text.trimChars _), ← Text.trim, htrim]
    rw [Text.trimChars_cons rfl, htrimmed, if_neg (by simpa using hne),
      String.ofList_toList] at hfallback
    refine segments_directive whole inEval depth pending behind (by decide)
      (hname.2.append_cons hinside) ?_
    rw [simple_optenv whole ((words_arguments hkind _).trans
      (congrArg _ (Text.words_append_cons hname.1 rfl _))), hfallback, String.ofList_toList]
  | .dirname, _, _ => by
    have hkind : IsKind "dirname" := isKind_of_mem (by decide)
    have hinside : IsInside ("dirname".toList ++ []) := by decide
    have htail : ∀ c ∈ ([] : List Char).head?, Text.isBlank c = true := nofun
    have hcut := cut_directive whole hkind.word hkind.ne_eval htail hinside behind
    rw [List.append_nil] at hcut
    have hsimple : simple whole "dirname".toList = .ok .dirname := by
      rw [simple, Text.words_of_isWord hkind.word]
      simp
    have hdirective : written .dirname ++ behind =
        '$' :: '(' :: ("dirname".toList ++ ')' :: behind) := by simp [written, directive]
    rw [hdirective]
    exact segments_of_cut hcut hsimple inEval depth pending

end

/-! ## Rows of segments -/

/-- Parentheses that are open behind both texts were open between them. -/
theorem depthAfter?_append {inEval : Bool} {depth depth' : Nat} {as bs : List Char}
    (h : depthAfter? inEval depth (as ++ bs) = some depth') : ∃ between,
      depthAfter? inEval depth as = some between ∧ depthAfter? inEval between bs = some depth' := by
  rw [depthAfter?, List.foldlM_append] at h
  exact Option.bind_eq_some_iff.1 h

/-- What is pending goes before the row. -/
theorem segments_writtenAll (whole : String) (inEval : Bool) {segs : List Segment}
    {pending : List Char} {depth depth' : Nat} (hsegs : ∀ segment ∈ segs, segment.IsWellFormed)
    (hapart : segs.IsChain fun segment next => segment.isText = true → next.isText = false)
    (hpending : pending ≠ [] → ∀ segment ∈ segs.head?, segment.isText = false)
    (hdepth : depthAfter? inEval depth (segs.flatMap literal) = some depth') :
    segments whole inEval depth pending (writtenAll segs) = .ok (prepend pending segs) := by
  induction segs generalizing pending depth with
  | nil => rw [writtenAll, segments]
  | cons segment segs ih =>
    obtain ⟨hsegment, hrest⟩ := List.forall_mem_cons.1 hsegs
    obtain ⟨hnext, hothers⟩ := List.isChain_cons.1 hapart
    rw [List.flatMap_cons] at hdepth
    obtain ⟨between, hliteral, hbehind⟩ := depthAfter?_append hdepth
    rw [writtenAll]
    cases htext : segment.isText with
    | true =>
      obtain ⟨s, rfl⟩ : ∃ s, segment = .text s := by
        cases segment <;> cases htext
        exact ⟨_, rfl⟩
      have hnil : pending = [] := by
        by_contra hne
        have hnotText := hpending hne (.text s) rfl
        cases hnotText
      have htaken : prepend (s.toList.reverse ++ pending) segs = .text s :: segs := by
        rw [hnil, List.append_nil, prepend, List.isEmpty_reverse,
          if_neg (by simpa [IsWellFormed] using hsegment), List.reverse_reverse,
          String.ofList_toList]
      rw [literal] at hliteral
      rw [written, segments_escape whole inEval _ hliteral,
        ih hrest hothers (fun _ next hmem => hnext next hmem rfl) hbehind, htaken, hnil]
      rfl
    | false =>
      have hbetween : between = depth := by
        cases segment <;> cases htext <;> exact (Option.some.inj hliteral).symm
      rw [segments_written whole inEval depth pending _ hsegment htext,
        ih hrest hothers (fun h => absurd rfl h) (hbetween ▸ hbehind)]
      rfl

end LaunchFile.Segment
