import LaunchFile.Except
import LaunchFile.Proofs.Substitution.Written

/-!
# Proofs/Substitution/Canonical — reading undoes writing

What is read from a text has the shape that is written (`isRead_of_segments`), so that the rows that
are read back from their text are just those that some text is read as (`parse_render`), as long as
none of them holds `$(eval …)`.
-/

namespace LaunchFile.Segment

/-! ## What is read -/

/-- What a rest of a text without `$(eval …)` is read as, when `pending` stands before it. -/
structure IsRead (inEval : Bool) (depth : Nat) (pending : List Char) (found : List Segment) :
    Prop where
  wellFormed : ∀ segment ∈ found, segment.IsWellFormed
  apart : found.IsChain fun segment next => segment.isText = true → next.isText = false
  closes : ∃ more depth', found.flatMap literal = pending.reverse ++ more ∧
    depthAfter? inEval depth more = some depth'

variable {inEval : Bool} {depth between : Nat} {pending : List Char} {found : List Segment}

/-- One more literal character is read. -/
theorem IsRead.char {c : Char} (hstep : literalStep? inEval depth c = some between)
    (h : IsRead inEval between (c :: pending) found) : IsRead inEval depth pending found where
  wellFormed := h.wellFormed
  apart := h.apart
  closes := by
    obtain ⟨more, depth', hliteral, hdepth⟩ := h.closes
    refine ⟨c :: more, depth', by simpa using hliteral, ?_⟩
    rw [depthAfter?, List.foldlM_cons, hstep]
    exact hdepth

theorem isRead_nil : IsRead inEval depth [] [] :=
  ⟨nofun, .nil, [], depth, rfl, rfl⟩

/-- Pending characters become a segment before one that is no text. -/
theorem IsRead.prepend (h : IsRead inEval depth [] found)
    (hhead : ∀ segment ∈ found.head?, segment.isText = false) :
    IsRead inEval depth pending (Segment.prepend pending found) := by
  obtain ⟨more, depth', hliteral, hdepth⟩ := h.closes
  unfold Segment.prepend
  split
  · rename_i hempty
    rw [List.isEmpty_iff.1 hempty]
    exact h
  · rename_i hne
    refine ⟨List.forall_mem_cons.2 ⟨?_, h.wellFormed⟩, List.isChain_cons.2 ⟨?_, h.apart⟩,
      more, depth', ?_, hdepth⟩
    · simpa [IsWellFormed] using hne
    · exact fun next hnext _ => hhead next hnext
    · rw [List.flatMap_cons, literal, String.toList_ofList, hliteral]
      rfl

/-- A directive is read before the rest. -/
theorem IsRead.directive {segment : Segment} (hsegment : segment.IsWellFormed)
    (htext : segment.isText = false) (h : IsRead inEval depth [] found) :
    IsRead inEval depth [] (segment :: found) where
  wellFormed := List.forall_mem_cons.2 ⟨hsegment, h.wellFormed⟩
  apart := List.isChain_cons.2 ⟨fun _ _ hisText => absurd hisText (by simp [htext]), h.apart⟩
  closes := by
    obtain ⟨more, depth', hliteral, hdepth⟩ := h.closes
    refine ⟨more, depth', ?_, hdepth⟩
    rw [List.flatMap_cons, hliteral]
    cases segment <;> first | rfl | cases htext

theorem IsInside.part {cs part : List Char} (h : IsInside cs) (hpart : part <:+: cs) :
    IsInside part :=
  ⟨fun hmem => h.1 (hpart.subset hmem), Text.occurs_eq_false_of_infix h.2 hpart⟩

theorem isArgument_of_mem_words {content word : List Char} (hinside : IsInside content)
    (h : word ∈ Text.words content) : IsArgument (String.ofList word) := by
  obtain ⟨hword, hpart⟩ := Text.isWord_of_mem_words h
  rw [IsArgument, String.toList_ofList]
  exact ⟨hword, hinside.part hpart⟩

theorem oneArg_eq_ok {whole : String} {kind : List Char} {args : List (List Char)}
    {make : String → Segment} {segment : Segment}
    (h : (oneArg whole kind args).map make = .ok segment) :
    ∃ word ∈ args, segment = make (String.ofList word) := by
  unfold oneArg at h
  split at h <;> cases h
  exact ⟨_, List.mem_singleton_self _, rfl⟩

theorem isFallback_of_optenvFallback {kind name content : List Char} {fallback : String}
    (hinside : IsInside content) (h : optenvFallback kind name content = some fallback) :
    IsFallback fallback := by
  have hpart : ∀ (n : Nat) (cs : List Char), (Text.trimStartChars cs).drop n <:+: cs := fun n cs =>
    (List.drop_suffix n _).isInfix.trans (Text.trimStartChars_suffix cs).isInfix
  unfold optenvFallback at h
  simp only at h
  split at h
  · cases h
  · rename_i hne
    cases h
    refine ⟨by simpa using hne, ?_, ?_⟩
    · rw [Text.trim, String.toList_ofList, Text.trimChars_trimChars]
    · rw [String.toList_ofList]
      exact hinside.part ((Text.trimChars_infix _).trans ((hpart _ _).trans (hpart _ _)))

/-- A content in parentheses is read as a directive with well-formed arguments. -/
theorem isWellFormed_of_simple {whole : String} {content : List Char} {segment : Segment}
    (hinside : IsInside content) (h : simple whole content = .ok segment) :
    segment.IsWellFormed ∧ segment.isText = false := by
  unfold simple at h
  split at h
  · cases h
  · rename_i kind args hwords
    have hargs : ∀ word ∈ args, IsArgument (String.ofList word) := fun word hword =>
      isArgument_of_mem_words hinside (hwords ▸ List.mem_cons_of_mem _ hword)
    split at h
    · obtain ⟨word, hword, rfl⟩ := oneArg_eq_ok h
      exact ⟨hargs word hword, rfl⟩
    · obtain ⟨word, hword, rfl⟩ := oneArg_eq_ok h
      exact ⟨hargs word hword, rfl⟩
    · obtain ⟨word, hword, rfl⟩ := oneArg_eq_ok h
      exact ⟨hargs word hword, rfl⟩
    · obtain ⟨word, hword, rfl⟩ := oneArg_eq_ok h
      exact ⟨hargs word hword, rfl⟩
    · split at h
      · cases h
      · rename_i name others
        cases h
        refine ⟨?_, rfl⟩
        cases hfallback : optenvFallback kind name content with
        | none => exact hargs name List.mem_cons_self
        | some fallback =>
          exact ⟨hargs name List.mem_cons_self, isFallback_of_optenvFallback hinside hfallback⟩
    · split at h <;> cases h
      exact ⟨trivial, rfl⟩
    · cases h

theorem isInside_of_cut {whole : String} {cs content behind : List Char}
    (h : cut whole cs = .ok (.simple content behind)) : IsInside content := by
  unfold cut at h
  simp only at h
  split at h
  · split at h
    · cases h
    · split at h <;> cases h
  · split at h
    · cases h
    · rename_i hsplit
      split at h
      · cases h
      · rename_i hnested
        cases h
        exact ⟨(splitAt?_eq_some hsplit).2, by simpa using hnested⟩

/-- **What is read has the shape that is written.** -/
theorem isRead_of_segments {whole : String} {cs : List Char}
    (h : segments whole inEval depth pending cs = .ok found)
    (hplain : ∀ segment ∈ found, segment.isEval = false) : IsRead inEval depth pending found := by
  fun_induction segments whole inEval depth pending cs generalizing found with
  | case1 inEval depth pending =>
    cases h
    exact isRead_nil.prepend nofun
  | case2 inEval depth pending cs ih =>
    have hstep : literalStep? inEval depth '$' = some depth := by cases inEval <;> rfl
    exact (ih h hplain).char hstep
  | case3 => cases h
  | case4 inEval depth pending cs expression rest hcut ihparts ihrest =>
    obtain ⟨parts, -, h⟩ := Except.bind_eq_ok h
    obtain ⟨following, -, h⟩ := Except.bind_eq_ok h
    cases h
    have heval : Segment.eval parts ∈ prepend pending (.eval parts :: following) := by
      unfold prepend
      split <;> simp
    exact nomatch hplain _ heval
  | case5 inEval depth pending cs content rest hcut ih =>
    obtain ⟨segment, hsimple, h⟩ := Except.bind_eq_ok h
    obtain ⟨following, hfollowing, h⟩ := Except.bind_eq_ok h
    cases h
    obtain ⟨hsegment, htext⟩ := isWellFormed_of_simple (isInside_of_cut hcut) hsimple
    have hrest : ∀ s ∈ following, s.isEval = false := fun s hs => hplain s (by
      unfold prepend
      split <;> simp [hs])
    refine IsRead.prepend ((ih hfollowing hrest).directive hsegment htext) fun s hs => ?_
    cases hs
    exact htext
  | case6 depth pending c cs _ _ ih => exact (ih h hplain).char rfl
  | case7 inEval depth pending c cs _ _ hin hopen ih =>
    have hstep : literalStep? inEval depth c = some (depth + 1) := by
      simp [literalStep?, Text.parenStep?, hin, hopen]
    exact (ih h hplain).char hstep
  | case8 => cases h
  | case9 inEval pending c cs _ _ hin hopen hclose depth ih =>
    have hstep : literalStep? inEval (depth + 1) c = some depth := by
      simp [literalStep?, Text.parenStep?, hin, hopen, hclose]
    exact (ih h hplain).char hstep
  | case10 inEval depth pending c cs _ _ hin hopen hclose ih =>
    have hstep : literalStep? inEval depth c = some depth := by
      simp [literalStep?, Text.parenStep?, hin, hopen, hclose]
    exact (ih h hplain).char hstep

/-! ## Reading and writing -/

theorem depthAfter?_false_iff {cs : List Char} : (∃ depth', depthAfter? false 0 cs = some depth') ↔
    ∀ front, front <+: cs → front.count ')' ≤ front.count '(' := by
  have hdistinct : ∀ c : Char, (c == '(') = true → (c == ')') = false := fun c hc => by
    rw [eq_of_beq hc]
    rfl
  have hcount : (depthAfter? false 0 cs).isSome = true ↔
      ∀ front, front <+: cs → front.count ')' ≤ 0 + front.count '(' :=
    Text.isSome_parensAfter?_iff hdistinct
  simp only [Nat.zero_add] at hcount
  exact Option.isSome_iff_exists.symm.trans hcount

theorem parse_render_of_isCanonical {segs : List Segment} (h : IsCanonical segs) :
    parse (render segs) = .ok segs := by
  rcases h with rfl | h
  · have hempty : writtenAll [.text ""] = [] := rfl
    rw [parse, render, String.toList_ofList, hempty, segments]
    rfl
  · obtain ⟨depth', hdepth⟩ := depthAfter?_false_iff.2 h.closes
    rw [parse, render, String.toList_ofList, segments_writtenAll _ false h.wellFormed h.apart
      (fun hne => absurd rfl hne) hdepth]
    have hne : segs.isEmpty = false := by simpa using h.ne_nil
    simp [prepend, Except.map, hne]

theorem isCanonical_of_parse {text : String} {segs : List Segment} (h : parse text = .ok segs)
    (hplain : ∀ segment ∈ segs, segment.isEval = false) : IsCanonical segs := by
  unfold parse at h
  cases hfound : segments text false 0 [] text.toList with
  | error e =>
    rw [hfound] at h
    cases h
  | ok found =>
    rw [hfound] at h
    cases hempty : found.isEmpty with
    | true =>
      simp only [Except.map, hempty, if_true, Except.ok.injEq] at h
      exact .inl h.symm
    | false =>
      simp only [Except.map, hempty, Bool.false_eq_true, if_false, Except.ok.injEq] at h
      subst h
      have hread := isRead_of_segments hfound hplain
      obtain ⟨more, depth', hliteral, hdepth⟩ := hread.closes
      refine .inr ⟨by simpa using hempty, hread.wellFormed, hread.apart, ?_⟩
      rw [hliteral]
      exact depthAfter?_false_iff.1 ⟨depth', hdepth⟩

/-- **Reading undoes writing.** A canonical row of segments is read back from its text, and every
row that is read from a text, and holds no `$(eval …)`, is canonical. -/
theorem parse_render (segs : List Segment) :
    (IsCanonical segs → parse (render segs) = .ok segs) ∧
      ∀ text, parse text = .ok segs → (∀ segment ∈ segs, segment.isEval = false) →
        IsCanonical segs ∧ parse (render segs) = .ok segs := by
  refine ⟨parse_render_of_isCanonical, fun text h hplain => ?_⟩
  have hcanonical := isCanonical_of_parse h hplain
  exact ⟨hcanonical, parse_render_of_isCanonical hcanonical⟩

/-- A row with a dollar and parentheses in its texts and a blank in a fallback. -/
theorem parse_render_mixed :
    let segs : List Segment :=
      [.text "($", .optenv "HOST" (some "my  host"), .text ")$(", .arg "x$"]
    render segs = "($$$(optenv HOST my  host))$$($(arg x$)" ∧ IsCanonical segs ∧
      parse (render segs) = .ok segs := by
  intro segs
  have hcanonical : IsCanonical segs := .inr {
    ne_nil := List.cons_ne_nil _ _
    wellFormed := by
      have hhost : IsArgument "HOST" ∧ IsFallback "my  host" := by
        unfold IsArgument IsFallback
        decide
      have hx : IsArgument "x$" := by
        unfold IsArgument
        decide
      simpa [segs, IsWellFormed, hhost] using hx
    apart := by simp [segs, isText]
    closes := depthAfter?_false_iff.1 ⟨_, rfl⟩ }
  exact ⟨by decide, hcanonical, (parse_render segs).1 hcanonical⟩

end LaunchFile.Segment
