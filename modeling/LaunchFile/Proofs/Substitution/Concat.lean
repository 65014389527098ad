import LaunchFile.Proofs.Substitution.Canonical
import LaunchFile.Proofs.Substitution.Splice

/-!
# Proofs/Substitution/Concat — texts one behind the other

A text that can be read leaves nothing open in which a text behind it could be caught: each of its
directives ends inside of it, and of literal text only characters and a count of parentheses are
kept (`Reads`). A text that can be read alone can also be read with those before it
(`segments_behind`). So one text behind the other resolves to the one value behind the other
(`evaluate_append`), and the value of an argument stands in between as it is.
-/

namespace LaunchFile.Segment

variable {inEval : Bool} {depth depth' between : Nat} {pending pending' cs : List Char}
  {front found : List Segment} {whole : String}

/-! ## The end of a directive -/

/-- A character is passed over, or it closes the directive. -/
theorem passes_or_closes (depth : Nat) (quote : Option Char) (c : Char) :
    (∃ depth' quote', Passes depth quote [c] depth' quote') ∨
      depth = 0 ∧ quote = none ∧ c = ')' := by
  cases quote with
  | some q =>
    by_cases hc : c = q
    · exact .inl ⟨depth, none, hc ▸ passes_unquote c⟩
    · exact .inl ⟨depth, some q, passes_quoted hc⟩
  | none =>
    by_cases hquote : c ∈ ['\'', '"']
    · exact .inl ⟨depth, some c, passes_quote hquote⟩
    · by_cases hopen : c = '('
      · exact .inl ⟨depth + 1, none, hopen ▸ passes_opening⟩
      · by_cases hclose : c = ')'
        · cases depth with
          | zero => exact .inr ⟨rfl, rfl, hclose⟩
          | succ depth => exact .inl ⟨depth, none, hclose ▸ passes_closing⟩
        · refine .inl ⟨depth, none, passes_plain ?_⟩
          simp_all [Expr.IsPlain, Expr.marks]

/-- The body of an expression is passed over, up to the parenthesis that closes it. -/
theorem passes_of_evalBody? {quote : Option Char} {taken rest : List Char}
    (h : evalBody? depth quote cs = some (taken, rest)) :
    cs = taken ++ ')' :: rest ∧ Passes depth quote taken 0 none := by
  induction cs generalizing depth quote taken with
  | nil => cases h
  | cons c cs ih =>
    rcases passes_or_closes depth quote c with ⟨depth', quote', hc⟩ | ⟨rfl, rfl, rfl⟩
    · rw [← List.singleton_append, hc cs] at h
      obtain ⟨⟨body, rest⟩, hbody, heq⟩ := Option.map_eq_some_iff.1 h
      cases heq
      obtain ⟨rfl, hpasses⟩ := ih hbody
      exact ⟨rfl, hc.append hpasses⟩
    · simp only [evalBody?] at h
      cases h
      exact ⟨rfl, passes_nil⟩

/-- More text goes to what stands behind an expression. -/
theorem evalBody?_extend {quote : Option Char} {taken rest : List Char}
    (h : evalBody? depth quote cs = some (taken, rest)) (behind : List Char) :
    evalBody? depth quote (cs ++ behind) = some (taken, rest ++ behind) := by
  obtain ⟨rfl, hpasses⟩ := passes_of_evalBody? h
  rw [List.append_assoc, hpasses, List.cons_append, evalBody?]
  simp

/-- More text behind the text that a directive was cut off. -/
def Cut.extend (behind : List Char) : Cut → Cut
  | .eval expression rest => .eval expression (rest ++ behind)
  | .simple content rest => .simple content (rest ++ behind)

/-- What follows a directive is behind its rest. -/
theorem Cut.rest_extend (behind : List Char) : ∀ found : Cut,
    (found.extend behind).rest = found.rest ++ behind
  | .eval _ _ => rfl
  | .simple _ _ => rfl

/-- A part that ends within the text ends there with more text behind it. -/
theorem takeWhile_extend {p : Char → Bool} {c : Char} (hc : c ∈ cs) (hp : p c = false)
    (behind : List Char) : (cs ++ behind).takeWhile p = cs.takeWhile p := by
  induction cs with
  | nil => cases hc
  | cons d cs ih =>
    rw [List.cons_append, List.takeWhile_cons, List.takeWhile_cons]
    rcases List.mem_cons.1 hc with rfl | hmem
    · rw [hp]
      rfl
    · rw [ih hmem]

/-- Blanks at the start are the same with more text behind a closing parenthesis. -/
theorem trimStartChars_extend (h : ')' ∈ cs) (behind : List Char) :
    ')' ∈ Text.trimStartChars cs ∧
      Text.trimStartChars (cs ++ behind) = Text.trimStartChars cs ++ behind := by
  induction cs with
  | nil => cases h
  | cons c cs ih =>
    cases hblank : Text.isBlank c with
    | true =>
      rw [List.cons_append, Text.trimStartChars_cons hblank, Text.trimStartChars_cons hblank]
      rcases List.mem_cons.1 h with rfl | hmem
      · cases hblank
      · exact ih hmem
    | false =>
      have hstay : ∀ ds, Text.trimStartChars (c :: ds) = c :: ds := fun ds =>
        List.dropWhile_cons_of_neg (by simp [hblank])
      rw [List.cons_append, hstay, hstay]
      exact ⟨h, rfl⟩

/-- **A directive ends where it ends**, whatever stands behind it, and also where its text is part
of another one. -/
theorem cut_extend {found : Cut} (h : cut whole cs = .ok found) (whole' : String)
    (behind : List Char) : cut whole' (cs ++ behind) = .ok (found.extend behind) := by
  have hkind : ')' ∈ cs → (Text.trimStartChars cs ++ behind).takeWhile
      (fun c => !(Text.isBlank c || c == ')')) =
        (Text.trimStartChars cs).takeWhile fun c => !(Text.isBlank c || c == ')') := fun hmem =>
    takeWhile_extend (trimStartChars_extend hmem behind).1 (by decide) behind
  unfold cut at h ⊢
  simp only at h ⊢
  split at h
  · rename_i heval
    split at h
    · cases h
    · rename_i taken rest hbody
      have hclose : ')' ∈ cs := by
        have hmem : ')' ∈ taken ++ ')' :: rest := by simp
        rw [← (passes_of_evalBody? hbody).1] at hmem
        exact (List.dropWhile_sublist _).subset (List.mem_of_mem_drop hmem)
      rw [(trimStartChars_extend hclose behind).2, hkind hclose, if_pos heval,
        List.drop_append_of_le_length (List.takeWhile_prefix _).length_le,
        evalBody?_extend hbody behind]
      split at h
      · cases h
      · rename_i hexpression
        cases h
        exact if_neg hexpression
  · rename_i heval
    split at h
    · cases h
    · rename_i content rest hsplit
      obtain ⟨rfl, hcontent⟩ := splitAt?_eq_some hsplit
      have hclose : ')' ∈ content ++ ')' :: rest := by simp
      rw [(trimStartChars_extend hclose behind).2, hkind hclose, if_neg heval, List.append_assoc,
        List.cons_append, splitAt?_append hcontent]
      split at h
      · cases h
      · rename_i hnested
        cases h
        exact if_neg hnested

/-- A directive is cut off the front. -/
theorem suffix_of_cut {found : Cut} (h : cut whole cs = .ok found) : found.rest <:+ cs := by
  have hbehind : ∀ (taken rest : List Char), rest <:+ taken ++ ')' :: rest := fun taken rest =>
    ⟨taken ++ [')'], by simp⟩
  unfold cut at h
  simp only at h
  split at h
  · split at h
    · cases h
    · rename_i taken rest hbody
      split at h <;> cases h
      have hrest := hbehind taken rest
      rw [← (passes_of_evalBody? hbody).1] at hrest
      exact hrest.trans ((List.drop_suffix _ _).trans (List.dropWhile_suffix _))
  · split at h
    · cases h
    · rename_i content rest hsplit
      split at h <;> cases h
      rw [(splitAt?_eq_some hsplit).1]
      exact hbehind content rest

/-- Whether a directive has one argument is no matter of the text around it. -/
theorem oneArg_whole {kind : List Char} {args : List (List Char)} {make : String → Segment}
    {segment : Segment} (h : (oneArg whole kind args).map make = .ok segment) (whole' : String) :
    (oneArg whole' kind args).map make = .ok segment := by
  unfold oneArg at h ⊢
  split at h
  · exact h
  · cases h

/-- A directive that can be read is the same in every text. -/
theorem simple_whole {content : List Char} {segment : Segment}
    (h : simple whole content = .ok segment) (whole' : String) :
    simple whole' content = .ok segment := by
  unfold simple at h ⊢
  split at h
  · cases h
  · split at h
    · exact oneArg_whole h whole'
    · exact oneArg_whole h whole'
    · exact oneArg_whole h whole'
    · exact oneArg_whole h whole'
    · split at h
      · cases h
      · exact h
    · split at h
      · rename_i hargs
        rwa [if_pos hargs]
      · cases h
    · cases h

/-! ## Reading as a relation -/

/-- A character is literal unless it is a dollar before a dollar or a parenthesis. -/
def IsLiteral (c : Char) (cs : List Char) : Prop :=
  c = '$' → ∀ d ∈ cs.head?, d ≠ '$' ∧ d ≠ '('

/-- The rest of a text can be read, and what it is read as with what is pending before it. -/
inductive Reads (whole : String) : Bool → Nat → List Char → List Char → List Segment → Prop
  | nil {inEval : Bool} {depth : Nat} {pending : List Char} :
    Reads whole inEval depth pending [] (prepend pending [])
  | dollars {inEval : Bool} {depth : Nat} {pending cs : List Char} {found : List Segment} :
    Reads whole inEval depth ('$' :: pending) cs found →
      Reads whole inEval depth pending ('$' :: '$' :: cs) found
  | eval {inEval : Bool} {depth : Nat} {pending cs expression rest : List Char}
    {parts following : List Segment} :
    cut whole cs = .ok (.eval expression rest) → Reads whole true 0 [] expression parts →
      Reads whole inEval depth [] rest following →
      Reads whole inEval depth pending ('$' :: '(' :: cs)
        (prepend pending (.eval parts :: following))
  | simple {inEval : Bool} {depth : Nat} {pending cs content rest : List Char} {segment : Segment}
    {following : List Segment} :
    cut whole cs = .ok (.simple content rest) → Segment.simple whole content = .ok segment →
      Reads whole inEval depth [] rest following →
      Reads whole inEval depth pending ('$' :: '(' :: cs) (prepend pending (segment :: following))
  | literal {inEval : Bool} {depth between : Nat} {pending cs : List Char} {c : Char}
    {found : List Segment} :
    IsLiteral c cs → literalStep? inEval depth c = some between →
      Reads whole inEval between (c :: pending) cs found →
      Reads whole inEval depth pending (c :: cs) found

/-- A character that begins no directive and no dollar stands for itself. -/
theorem isLiteral_of_ne {c : Char} (hdollars : ∀ ds, c = '$' → cs = '$' :: ds → False)
    (hopens : ∀ ds, c = '$' → cs = '(' :: ds → False) : IsLiteral c cs := by
  rintro hc d hd
  obtain ⟨ds, rfl⟩ : ∃ ds, cs = d :: ds := List.head?_eq_some_iff.1 hd
  exact ⟨fun heq => hdollars ds hc (heq ▸ rfl), fun heq => hopens ds hc (heq ▸ rfl)⟩

/-- Each text that is read is read step by step. -/
theorem reads_of_segments (h : segments whole inEval depth pending cs = .ok found) :
    Reads whole inEval depth pending cs found := by
  fun_induction segments whole inEval depth pending cs generalizing found with
  | case1 inEval depth pending =>
    cases h
    exact .nil
  | case2 inEval depth pending cs ih => exact .dollars (ih h)
  | case3 => cases h
  | case4 inEval depth pending cs expression rest hcut ihparts ihrest =>
    obtain ⟨parts, hparts, h⟩ := Except.bind_eq_ok h
    obtain ⟨following, hfollowing, h⟩ := Except.bind_eq_ok h
    cases h
    exact .eval hcut (ihparts hparts) (ihrest hfollowing)
  | case5 inEval depth pending cs content rest hcut ih =>
    obtain ⟨segment, hsimple, h⟩ := Except.bind_eq_ok h
    obtain ⟨following, hfollowing, h⟩ := Except.bind_eq_ok h
    cases h
    exact .simple hcut hsimple (ih hfollowing)
  | case6 depth pending c cs hdollars hopens ih =>
    exact .literal (isLiteral_of_ne hdollars hopens) rfl (ih h)
  | case7 inEval depth pending c cs hdollars hopens hin hopen ih =>
    refine .literal (isLiteral_of_ne hdollars hopens) ?_ (ih h)
    simp [literalStep?, Text.parenStep?, hin, hopen]
  | case8 => cases h
  | case9 inEval pending c cs hdollars hopens hin hopen hclose depth ih =>
    refine .literal (isLiteral_of_ne hdollars hopens) ?_ (ih h)
    simp [literalStep?, Text.parenStep?, hin, hopen, hclose]
  | case10 inEval depth pending c cs hdollars hopens hin hopen hclose ih =>
    refine .literal (isLiteral_of_ne hdollars hopens) ?_ (ih h)
    simp [literalStep?, Text.parenStep?, hin, hopen, hclose]

/-- A literal is put before the rest. -/
theorem segments_literal {c : Char} (hc : IsLiteral c cs)
    (hstep : literalStep? inEval depth c = some between) (whole : String) (pending : List Char) :
    segments whole inEval depth pending (c :: cs) =
      segments whole inEval between (c :: pending) cs := by
  by_cases hdollar : c = '$'
  · subst hdollar
    have hbetween : between = depth := by cases inEval <;> exact (Option.some.inj hstep).symm
    rw [hbetween, segments.eq_def]
    split
    · rename_i heq
      cases heq
    · rename_i heq
      cases heq
      exact absurd rfl (hc rfl '$' rfl).1
    · rename_i heq
      cases heq
      exact absurd rfl (hc rfl '(' rfl).2
    · rename_i heq
      cases heq
      cases inEval <;> rfl
  · rw [segments_char whole inEval depth pending hdollar, hstep]

/-! ## With more before it -/

/-- Pending characters before a row of segments; they become one segment with a text in front. -/
def withPending (pending : List Char) : List Segment → List Segment
  | .text s :: rest => .text (String.ofList pending.reverse ++ s) :: rest
  | found => prepend pending found

/-- Without pending characters the row stays as it is. -/
theorem withPending_nil : ∀ found : List Segment, withPending [] found = found
  | [] => rfl
  | .text s :: rest => by simp [withPending]
  | .arg _ :: _ => rfl
  | .env _ :: _ => rfl
  | .optenv _ _ :: _ => rfl
  | .find _ :: _ => rfl
  | .anon _ :: _ => rfl
  | .dirname :: _ => rfl
  | .eval _ :: _ => rfl

/-- Pending characters of two rows are those of one. -/
theorem withPending_prepend (hhead : ∀ segment ∈ found.head?, segment.isText = false) :
    withPending pending' (prepend pending found) = prepend (pending ++ pending') found := by
  cases pending with
  | nil =>
    rw [prepend, List.isEmpty_nil, if_pos rfl, List.nil_append]
    cases found with
    | nil => rfl
    | cons segment found =>
      cases segment <;> first | rfl | cases hhead _ rfl
  | cons c pending => simp [prepend, withPending]

/-- More parentheses that are open around change no step. -/
theorem literalStep?_add {c : Char} (h : literalStep? inEval depth c = some between) (more : Nat) :
    literalStep? inEval (depth + more) c = some (between + more) := by
  cases inEval with
  | true => rw [← Option.some.inj h]; rfl
  | false =>
    simp only [literalStep?, Text.parenStep?, Bool.false_eq_true, if_false] at h ⊢
    grind

/-- A directive that can be read is read the same in every text. -/
theorem segments_extend {found : Cut} {segment : Segment} (hcut : cut whole cs = .ok found)
    {whole' : String} (hsegment : readCut whole' found = .ok segment) (behind : List Char)
    (inEval : Bool) (depth : Nat) (pending : List Char) :
    segments whole' inEval depth pending ('$' :: '(' :: cs ++ behind) =
      (segments whole' inEval depth [] (found.rest ++ behind)).map
        (prepend pending ∘ (segment :: ·)) := by
  have hread : readCut whole' (found.extend behind) = .ok segment := by
    rw [← hsegment]
    cases found <;> rfl
  have hsegments := segments_of_cut (cut_extend hcut whole' behind) hread inEval depth pending
  rwa [Cut.rest_extend] at hsegments

/-- A simple directive is no text. -/
theorem isText_of_simple {content rest : List Char} {segment : Segment}
    (hcut : cut whole cs = .ok (.simple content rest))
    (h : Segment.simple whole content = .ok segment) : segment.isText = false :=
  (isWellFormed_of_simple (isInside_of_cut hcut) h).2

/-- An eval directive holds the segments of its expression. -/
theorem readCut_eval {expression rest : List Char} {parts : List Segment}
    (h : segments whole true 0 [] expression = .ok parts) :
    readCut whole (.eval expression rest) = .ok (.eval parts) := by
  rw [readCut, h]
  rfl

/-- **A directive that was read is read again** in another text, if what follows is. -/
theorem segments_again {found : Cut} {segment : Segment} {rest : List Segment}
    (hcut : cut whole cs = .ok found) {whole' : String}
    (hsegment : readCut whole' found = .ok segment)
    (hrest : segments whole' inEval depth [] found.rest = .ok rest) (pending : List Char) :
    segments whole' inEval depth pending ('$' :: '(' :: cs) =
      .ok (prepend pending (segment :: rest)) := by
  have hread := segments_extend hcut hsegment [] inEval depth pending
  rw [List.append_nil, List.append_nil, hrest] at hread
  exact hread

/-- **What can be read alone** can be read with more text and more open parentheses before it. -/
theorem segments_behind (h : Reads whole inEval depth pending cs found) (whole' : String)
    (more : Nat) (before : List Char) :
    segments whole' inEval (depth + more) (pending ++ before) cs =
      .ok (withPending before found) := by
  induction h generalizing more before with
  | nil => rw [segments, withPending_prepend (by simp)]
  | dollars _ ih =>
    rw [segments_dollars]
    exact ih more before
  | eval hcut _ _ ihparts ihrest =>
    have hparts := ihparts 0 []
    have hrest := ihrest more []
    rw [Nat.add_zero, List.append_nil, withPending_nil] at hparts
    rw [List.append_nil, withPending_nil] at hrest
    rw [segments_again hcut (readCut_eval hparts) hrest, withPending_prepend (by simp [isText])]
  | simple hcut hsimple _ ih =>
    have hrest := ih more []
    rw [List.append_nil, withPending_nil] at hrest
    rw [segments_again hcut (simple_whole hsimple whole') hrest,
      withPending_prepend (by simpa using isText_of_simple hcut hsimple)]
  | literal hc hstep _ ih =>
    rw [segments_literal hc (literalStep?_add hstep more)]
    exact ih more before

/-- A text is read the same wherever faults would be reported. -/
theorem Reads.segments_eq (h : Reads whole inEval depth pending cs found) (whole' : String) :
    segments whole' inEval depth pending cs = .ok found := by
  have hsegments := segments_behind h whole' 0 []
  rwa [Nat.add_zero, List.append_nil, withPending_nil] at hsegments

/-! ## With more behind it -/

/-- Whatever stands behind a text, the reader goes on from one state to another, with a row of
segments read. -/
def Leaves (inEval : Bool) (depth : Nat) (pending cs : List Char) (front : List Segment)
    (depth' : Nat) (pending' : List Char) : Prop :=
  ∀ whole behind, segments whole inEval depth pending (cs ++ behind) =
    (segments whole inEval depth' pending' behind).map (front ++ ·)

theorem leaves_nil : Leaves inEval depth pending [] [] depth pending := fun whole behind => by
  cases h : segments whole inEval depth pending behind <;> simp [h, Except.map]

/-- Pending characters are put before the whole row. -/
theorem prepend_append (front rest : List Segment) :
    prepend pending (front ++ rest) = prepend pending front ++ rest := by
  rw [prepend, prepend]
  split <;> rfl

/-- A directive in front of a text that leaves something leaves the same. -/
theorem Leaves.directive {found : Cut} {segment : Segment} (hcut : cut whole cs = .ok found)
    (hsegment : ∀ whole, readCut whole found = .ok segment)
    (h : Leaves inEval depth [] found.rest front depth' pending') :
    Leaves inEval depth pending ('$' :: '(' :: cs) (prepend pending (segment :: front)) depth'
      pending' := by
  intro whole' behind
  rw [segments_extend hcut (hsegment whole'), h]
  cases segments whole' inEval depth' pending' behind with
  | error e => rfl
  | ok rest => exact congrArg Except.ok (prepend_append (segment :: front) rest)

/-- A dollar before other characters is literal. -/
theorem Leaves.literal {c : Char} (hc : IsLiteral c cs) (hend : ¬['$'] <:+ c :: cs)
    (hstep : literalStep? inEval depth c = some between)
    (h : Leaves inEval between (c :: pending) cs front depth' pending') :
    Leaves inEval depth pending (c :: cs) front depth' pending' := by
  intro whole behind
  have hc' : IsLiteral c (cs ++ behind) := fun hdollar d hd => by
    cases cs with
    | nil => exact absurd (hdollar ▸ List.suffix_rfl) hend
    | cons => exact hc hdollar d hd
  rw [List.cons_append, segments_literal hc' hstep]
  exact h whole behind

/-- **A text that does not end in a dollar** leaves nothing open but parentheses: what is pending
behind it is the text at its end. -/
theorem exists_leaves (h : Reads whole inEval depth pending cs found) (hend : ¬['$'] <:+ cs) :
    ∃ front depth' pending', Leaves inEval depth pending cs front depth' pending' ∧
      found = front ++ prepend pending' [] := by
  induction h with
  | nil => exact ⟨[], _, _, leaves_nil, rfl⟩
  | dollars _ ih =>
    obtain ⟨front, depth', pending', hleaves, rfl⟩ := ih fun hdollar =>
      hend (hdollar.trans (List.suffix_append ['$', '$'] _))
    refine ⟨front, depth', pending', fun whole behind => ?_, rfl⟩
    rw [List.cons_append, List.cons_append, segments_dollars]
    exact hleaves whole behind
  | eval hcut hparts _ _ ih =>
    obtain ⟨front, depth', pending', hleaves, rfl⟩ := ih fun hdollar =>
      hend (hdollar.trans ((suffix_of_cut hcut).trans (List.suffix_append ['$', '('] _)))
    exact ⟨_, depth', pending',
      hleaves.directive hcut fun whole' => readCut_eval (hparts.segments_eq whole'),
      prepend_append (_ :: front) _⟩
  | simple hcut hsimple _ ih =>
    obtain ⟨front, depth', pending', hleaves, rfl⟩ := ih fun hdollar =>
      hend (hdollar.trans ((suffix_of_cut hcut).trans (List.suffix_append ['$', '('] _)))
    exact ⟨_, depth', pending', hleaves.directive hcut (simple_whole hsimple),
      prepend_append (_ :: front) _⟩
  | literal hc hstep _ ih =>
    obtain ⟨front, depth', pending', hleaves, hfound⟩ := ih fun hdollar =>
      hend (hdollar.trans (List.suffix_append [_] _))
    exact ⟨front, depth', pending', hleaves.literal hc hend hstep, hfound⟩

/-! ## Their values -/

section

variable {scope : Scope} {look : Lookups} {name value a b : String}

/-- **Rows of segments resolve one after the other.** -/
theorem resolveAll_append (front rest : List Segment) :
    resolveAll scope look (front ++ rest) = (do
      let x ← resolveAll scope look front
      let y ← resolveAll scope look rest
      pure (x ++ y)) := by
  induction front with
  | nil => simp only [List.nil_append, resolveAll, pure_bind, String.empty_append, bind_pure]
  | cons segment front ih =>
    simp only [List.cons_append, resolveAll, ih, bind_assoc, pure_bind, String.append_assoc]

/-- A text stands for itself. -/
theorem resolveAll_text (s : String) (rest : List Segment) :
    resolveAll scope look (.text s :: rest) = (do
      let y ← resolveAll scope look rest
      pure (s ++ y)) := by
  rw [resolveAll, resolve, pure_bind]

/-- Pending characters stand for themselves. -/
theorem resolveAll_prepend (pending : List Char) (rest : List Segment) :
    resolveAll scope look (prepend pending rest) = (do
      let y ← resolveAll scope look rest
      pure (String.ofList pending.reverse ++ y)) := by
  rw [prepend]
  split
  · rename_i hempty
    rw [List.isEmpty_iff.1 hempty]
    simp only [List.reverse_nil, String.ofList_nil, String.empty_append, bind_pure]
  · exact resolveAll_text _ rest

/-- So they do where they meet a text. -/
theorem resolveAll_withPending (pending : List Char) (found : List Segment) :
    resolveAll scope look (withPending pending found) = (do
      let y ← resolveAll scope look found
      pure (String.ofList pending.reverse ++ y)) := by
  unfold withPending
  split
  · simp only [resolveAll_text, bind_assoc, pure_bind, String.append_assoc]
  · exact resolveAll_prepend pending _

/-- A text has the segments that are read from it, and an empty one at least. -/
theorem parse_of_segments {text : String} (h : segments text false 0 [] text.toList = .ok found) :
    parse text = .ok (if found.isEmpty then [.text ""] else found) := by
  rw [parse, h]
  rfl

/-- An attribute text resolves as its segments do. -/
theorem evaluate_of_segments {text : String}
    (h : segments text false 0 [] text.toList = .ok found) :
    evaluate scope look text = resolveAll scope look found := by
  rw [evaluate_eq, parse_of_segments h]
  split
  · rename_i hempty
    rw [List.isEmpty_iff.1 hempty]
    rfl
  · rfl

/-- What two texts that stand one behind the other are read as. -/
theorem exists_segments_append {as bs : List Segment}
    (has : segments a false 0 [] a.toList = .ok as) (hbs : segments b false 0 [] b.toList = .ok bs)
    (hend : ¬['$'] <:+ a.toList) :
    ∃ front pending, as = front ++ prepend pending [] ∧
      segments (a ++ b) false 0 [] (a ++ b).toList = .ok (front ++ withPending pending bs) := by
  obtain ⟨front, depth, pending, hleaves, hfront⟩ := exists_leaves (reads_of_segments has) hend
  have hbehind := segments_behind (reads_of_segments hbs) (a ++ b) depth pending
  rw [Nat.zero_add, List.nil_append] at hbehind
  refine ⟨front, pending, hfront, ?_⟩
  rw [String.toList_append, hleaves, hbehind]
  rfl

/-- One text behind another can be read where both can. -/
theorem exists_parse_append {sa sb : List Segment} (ha : parse a = .ok sa) (hb : parse b = .ok sb)
    (hend : ¬['$'] <:+ a.toList) : ∃ found, parse (a ++ b) = .ok found := by
  obtain ⟨as, has, -⟩ := Except.map_eq_ok ha
  obtain ⟨bs, hbs, -⟩ := Except.map_eq_ok hb
  obtain ⟨front, pending, -, htogether⟩ := exists_segments_append has hbs hend
  exact ⟨_, parse_of_segments htogether⟩

/-- Its value is the one value behind the other. -/
theorem evaluate_append_eq {sa sb : List Segment} (ha : parse a = .ok sa) (hb : parse b = .ok sb)
    (hend : ¬['$'] <:+ a.toList) (scope : Scope) (look : Lookups) :
    evaluate scope look (a ++ b) = (do
      let x ← evaluate scope look a
      let y ← evaluate scope look b
      pure (x ++ y)) := by
  obtain ⟨as, has, -⟩ := Except.map_eq_ok ha
  obtain ⟨bs, hbs, -⟩ := Except.map_eq_ok hb
  obtain ⟨front, pending, rfl, htogether⟩ := exists_segments_append has hbs hend
  have hpending : resolveAll scope look (prepend pending []) =
      pure (String.ofList pending.reverse) := by
    rw [resolveAll_prepend, resolveAll, pure_bind, String.append_empty]
  rw [evaluate_of_segments htogether, evaluate_of_segments has, evaluate_of_segments hbs,
    resolveAll_append, resolveAll_append, resolveAll_withPending, hpending]
  simp only [bind_assoc, pure_bind, String.append_assoc]

/-! ## The value of an argument -/

/-- A bound argument has its value. -/
theorem resolve_arg (h : Binds scope name value) : resolve scope look (.arg name) = pure value := by
  obtain ⟨binding, hget, hvalue⟩ := h
  rw [resolve, resolveArg, hget]
  show (liftM (orFail binding.value _) : ResolveM String) = _
  rw [hvalue]
  rfl

/-- A directive for an argument is that one segment. -/
theorem segments_argDirective (hname : IsArgument name) :
    segments ("$(arg " ++ name ++ ")") false 0 [] ("$(arg " ++ name ++ ")").toList =
      .ok [.arg name] := by
  have hkind : ("arg", Segment.arg) ∈ oneArgKinds := by simp [oneArgKinds]
  rw [toList_argDirective, ← List.append_nil (directive _),
    segments_oneArg _ false 0 [] [] hkind hname, segments]
  rfl

/-- A directive for a bound argument resolves to its value. -/
theorem evaluate_argDirective (hname : IsArgument name) (hbound : Binds scope name value) :
    evaluate scope look ("$(arg " ++ name ++ ")") = pure value := by
  rw [evaluate_of_segments (segments_argDirective hname), resolveAll, resolve_arg hbound,
    resolveAll, pure_bind, pure_bind, String.append_empty]

/-- What is spliced between two texts is not read. -/
theorem evaluate_splice {sa sb : List Segment} (ha : parse a = .ok sa) (hb : parse b = .ok sb)
    (hend : ¬['$'] <:+ a.toList) (hname : IsArgument name) (hbound : Binds scope name value) :
    evaluate scope look (a ++ ("$(arg " ++ name ++ ")") ++ b) = (do
      let x ← evaluate scope look a
      let y ← evaluate scope look b
      pure (x ++ value ++ y)) := by
  have harg := parse_of_segments (segments_argDirective hname)
  obtain ⟨found, hfound⟩ := exists_parse_append ha harg hend
  have hclosed : ¬['$'] <:+ (a ++ ("$(arg " ++ name ++ ")")).toList := by
    have htext : (a ++ ("$(arg " ++ name ++ ")")).toList =
        a.toList ++ "$(arg ".toList ++ name.toList ++ [')'] := by simp
    rw [htext]
    rintro ⟨before, hbefore⟩
    exact absurd (List.append_inj_right' hbefore rfl) (by decide)
  rw [evaluate_append_eq hfound hb hclosed, evaluate_append_eq ha harg hend,
    evaluate_argDirective hname hbound]
  simp only [bind_assoc, pure_bind]

/-- **One text behind the other.** Where both can be read, and the first does not end in a dollar,
both together can be read; their value is the one value behind the other, with names made up and
faults found from left to right. The value of an argument stands between two texts as it is, and
between the segments of a row, whatever characters it has. -/
theorem evaluate_append {sa sb : List Segment} (ha : parse a = .ok sa) (hb : parse b = .ok sb)
    (hend : ¬['$'] <:+ a.toList) :
    (∃ found, parse (a ++ b) = .ok found) ∧
      ∀ (scope : Scope) (look : Lookups), evaluate scope look (a ++ b) = (do
          let x ← evaluate scope look a
          let y ← evaluate scope look b
          pure (x ++ y)) ∧
        ∀ name value, Binds scope name value →
          (IsArgument name → evaluate scope look (a ++ ("$(arg " ++ name ++ ")") ++ b) = (do
            let x ← evaluate scope look a
            let y ← evaluate scope look b
            pure (x ++ value ++ y))) ∧
          ∀ front rest, resolveAll scope look (front ++ .arg name :: rest) = (do
            let x ← resolveAll scope look front
            let y ← resolveAll scope look rest
            pure (x ++ value ++ y)) := by
  refine ⟨exists_parse_append ha hb hend, fun scope look =>
    ⟨evaluate_append_eq ha hb hend scope look, fun name value hbound =>
      ⟨fun hname => evaluate_splice ha hb hend hname hbound, fun front rest => ?_⟩⟩⟩
  rw [resolveAll_append, resolveAll, resolve_arg hbound]
  simp only [bind_assoc, pure_bind, String.append_assoc]

/-- Between an expression with a parenthesis and a quote in its literals and a dollar: a value that
would itself be a directive, a quote and a parenthesis. -/
theorem evaluate_append_quoted :
    let look : Lookups := ⟨fun _ => none, fun _ => none⟩
    outcome (evaluate (oneArgScope "n" "$(arg n)'(") look
      ("$(eval '(\"')" ++ ("$(arg " ++ "n" ++ ")") ++ "$$")) .empty =
        (.ok "(\"$(arg n)'($", .empty) := by
  intro look
  generalize hscope : oneArgScope "n" "$(arg n)'(" = scope
  have hparse : Expr.parse "'(\"'" = .ok (.literal (.str "(\"")) := by
    rw [Expr.parse, Expr.tokenize_eq_turns]
    rfl
  have ha : parse "$(eval '(\"')" = .ok [.eval [.text "'(\"'"]] :=
    parse_eval hparse (by decide) rfl
  have hb : parse "$$" = .ok [.text "$"] := by
    show (segments "$$" false 0 [] ['$', '$']).map _ = _
    rw [segments, segments]
    rfl
  have hname : IsArgument "n" := by
    unfold IsArgument
    decide
  have hbound : Binds scope "n" "$(arg n)'(" := by
    rw [← hscope]
    exact binds_oneArgScope "n" "$(arg n)'("
  have hvalue : outcome (Expr.evaluate (bindings scope look) "'(\"'") .empty =
      (.ok (.str "(\""), .empty) := by
    rw [Expr.evaluate, hparse]
    rfl
  have htext (s : String) : resolveAll scope look [.text s] = pure s := by
    rw [resolveAll_text, resolveAll, pure_bind, String.append_empty]
  have hexpression : outcome (evaluate scope look "$(eval '(\"')") .empty =
      (.ok "(\"", .empty) := by
    rw [outcome_evaluate_eval ha (by rw [htext]; rfl) hvalue]
    rfl
  have hdollar : outcome (evaluate scope look "$$") .empty = (.ok "$", .empty) := by
    rw [evaluate_eq, hb]
    exact congrArg (outcome · .empty) (htext "$")
  obtain ⟨-, happend⟩ := evaluate_append ha hb (by decide)
  rw [((happend scope look).2 "n" "$(arg n)'(" hbound).1 hname, outcome_bind_ok hexpression,
    outcome_bind_ok hdollar]
  rfl

end

end LaunchFile.Segment
