import LaunchFile.Text.Blank
import LaunchFile.Text.Search
import LaunchFile.Substitution.Error

/-!
# Substitution/Segment — attribute texts as rows of segments

An attribute text is literal text with directives `$(kind …)` in it; `$$` is a literal dollar.
Parentheses in literal text must pair up so far that none closes before it opens. Directives nest
only inside `$(eval …)`, whose end is found by counting parentheses outside of quotes.
-/

namespace LaunchFile

inductive Segment where
  | text (s : String)
  | arg (name : String)
  | env (name : String)
  | optenv (name : String) (fallback : Option String)
  | find (package : String)
  | anon (seed : String)
  | dirname
  | eval (parts : List Segment)
  deriving Inhabited

namespace Segment

/-! ## Simple directives -/

/-- The only argument of a directive. -/
def oneArg (whole : String) (kind : List Char) (args : List (List Char)) :
    Except SubstitutionError String :=
  match args with
  | [only] => .ok (String.ofList only)
  | _ => .error (.invalid whole (.oneArgument (String.ofList kind) args.length))

/-- What stands behind the name of `$(optenv …)`, blanks inside of it kept. -/
def optenvFallback (kind name content : List Char) : Option String :=
  let rest := (Text.trimStartChars content).drop kind.length
  let fallback := Text.trimChars ((Text.trimStartChars rest).drop name.length)
  if fallback.isEmpty then none else some (String.ofList fallback)

/-- The directive with this content, which holds no parenthesis. -/
def simple (whole : String) (content : List Char) : Except SubstitutionError Segment :=
  match Text.words content with
  | [] => .error (.invalid whole .empty)
  | kind :: args =>
    match String.ofList kind with
    | "arg" => (oneArg whole kind args).map .arg
    | "env" => (oneArg whole kind args).map .env
    | "find" => (oneArg whole kind args).map .find
    | "anon" => (oneArg whole kind args).map .anon
    | "optenv" =>
      match args with
      | [] => .error (.invalid whole .optenvName)
      | name :: _ => .ok (.optenv (String.ofList name) (optenvFallback kind name content))
    | "dirname" =>
      if args.isEmpty then .ok .dirname else .error (.invalid whole .dirnameArguments)
    | other => .error (.invalid whole (.unknown other))

/-! ## Where a directive ends -/

/-- The characters up to the first of a kind, and those behind it. -/
def splitAt? (stop : Char) : List Char → Option (List Char × List Char)
  | [] => none
  | c :: cs =>
    if c == stop then some ([], cs)
    else (splitAt? stop cs).map fun (taken, rest) => (c :: taken, rest)

/-- The body of an eval directive and what follows its closing parenthesis; `depth` counts the
parentheses that are open besides the directive's own, `quote` is the quote that is open. -/
def evalBody? (depth : Nat) (quote : Option Char) : List Char → Option (List Char × List Char)
  | [] => none
  | c :: cs =>
    let step (depth : Nat) (quote : Option Char) :=
      (evalBody? depth quote cs).map fun (taken, rest) => (c :: taken, rest)
    match quote with
    | some q => step depth (if c == q then none else quote)
    | none =>
      if c == '\'' || c == '"' then step depth (some c)
      else if c == '(' then step (depth + 1) none
      else if c == ')' then
        match depth with
        | 0 => some ([], cs)
        | depth + 1 => step depth none
      else step depth none

theorem evalBody?_length {depth : Nat} {quote : Option Char} {cs taken rest : List Char}
    (h : evalBody? depth quote cs = some (taken, rest)) :
    taken.length + rest.length < cs.length := by
  induction cs generalizing depth quote taken rest with
  | nil => simp [evalBody?] at h
  | cons c cs ih =>
    have step : ∀ {d q}, (evalBody? d q cs).map (fun (t, r) => (c :: t, r)) = some (taken, rest) →
        taken.length + rest.length < (c :: cs).length := by
      intro d q hs
      obtain ⟨⟨t, r⟩, ht, he⟩ := Option.map_eq_some_iff.1 hs
      simp only [Prod.mk.injEq] at he
      obtain ⟨rfl, rfl⟩ := he
      have := ih ht
      simp only [List.length_cons]
      omega
    unfold evalBody? at h
    split at h
    · exact step h
    · split at h
      · exact step h
      · split at h
        · exact step h
        · split at h
          · split at h
            · simp only [Option.some.injEq, Prod.mk.injEq] at h
              obtain ⟨rfl, rfl⟩ := h
              simp
            · exact step h
          · exact step h

theorem splitAt?_length {stop : Char} {cs taken rest : List Char}
    (h : splitAt? stop cs = some (taken, rest)) : taken.length + rest.length < cs.length := by
  induction cs generalizing taken rest with
  | nil => simp [splitAt?] at h
  | cons c cs ih =>
    unfold splitAt? at h
    split at h
    · simp only [Option.some.injEq, Prod.mk.injEq] at h
      obtain ⟨rfl, rfl⟩ := h
      simp
    · obtain ⟨⟨t, r⟩, ht, he⟩ := Option.map_eq_some_iff.1 h
      simp only [Prod.mk.injEq] at he
      obtain ⟨rfl, rfl⟩ := he
      have := ih ht
      simp only [List.length_cons]
      omega

/-- A directive cut out of a text: its content, still to be read, and the text behind it. -/
inductive Cut where
  | eval (expression rest : List Char)
  | simple (content rest : List Char)

def Cut.rest : Cut → List Char
  | .eval _ rest => rest
  | .simple _ rest => rest

/-- Cut the directive off a text that begins just behind its opening parenthesis. -/
def cut (whole : String) (cs : List Char) : Except SubstitutionError Cut :=
  let body := Text.trimStartChars cs
  let kind := body.takeWhile fun c => !(Text.isBlank c || c == ')')
  if kind == ['e', 'v', 'a', 'l'] then
    match evalBody? 0 none (body.drop kind.length) with
    | none => .error (.invalid whole .unclosedEval)
    | some (taken, rest) =>
      let expression := Text.trimChars taken
      if expression.isEmpty then .error (.invalid whole .emptyEval)
      else .ok (.eval expression rest)
  else
    match splitAt? ')' cs with
    | none => .error (.invalid whole .unclosed)
    | some (content, rest) =>
      if Text.occurs ['$', '('] content then .error (.invalid whole .nested)
      else .ok (.simple content rest)

theorem length_trimStartChars_le (cs : List Char) :
    (Text.trimStartChars cs).length ≤ cs.length :=
  (List.dropWhile_sublist _).length_le

theorem length_trimChars_le (cs : List Char) : (Text.trimChars cs).length ≤ cs.length := by
  unfold Text.trimChars Text.trimEndChars
  have h := (List.dropWhile_sublist Text.isBlank
    (l := (Text.trimStartChars cs).reverse)).length_le
  have h' := length_trimStartChars_le cs
  simp only [List.length_reverse] at h ⊢
  omega

theorem cut_eval_length {whole : String} {cs expression rest : List Char}
    (h : cut whole cs = .ok (.eval expression rest)) :
    expression.length + rest.length < cs.length := by
  unfold cut at h
  simp only at h
  split at h
  · split at h
    · simp at h
    · rename_i taken rest' hb
      split at h
      · simp at h
      · simp only [Except.ok.injEq, Cut.eval.injEq] at h
        obtain ⟨rfl, rfl⟩ := h
        have h1 := evalBody?_length hb
        have h2 := length_trimChars_le taken
        have h3 := length_trimStartChars_le cs
        simp only [List.length_drop] at h1
        omega
  · split at h
    · simp at h
    · split at h <;> simp at h

theorem cut_simple_length {whole : String} {cs content rest : List Char}
    (h : cut whole cs = .ok (.simple content rest)) : rest.length < cs.length := by
  unfold cut at h
  simp only at h
  split at h
  · split at h
    · simp at h
    · split at h <;> simp at h
  · split at h
    · simp at h
    · rename_i hs
      split at h
      · simp at h
      · simp only [Except.ok.injEq, Cut.simple.injEq] at h
        obtain ⟨rfl, rfl⟩ := h
        have := splitAt?_length hs
        omega

/-! ## Whole texts -/

/-- Put literal characters, collected last one first, before the segments that follow. -/
def prepend (literal : List Char) (segments : List Segment) : List Segment :=
  if literal.isEmpty then segments else .text (String.ofList literal.reverse) :: segments

/-- The segments of a text; `depth` counts the parentheses open in literal text, which are the
expression's own business inside `$(eval …)`, and `literal` holds the characters of the segment at
hand, last one first. -/
def segments (whole : String) (inEval : Bool) (depth : Nat) (literal : List Char) :
    List Char → Except SubstitutionError (List Segment)
  | [] => .ok (prepend literal [])
  | '$' :: '$' :: cs => segments whole inEval depth ('$' :: literal) cs
  | '$' :: '(' :: cs =>
    match _h : cut whole cs with
    | .error e => .error e
    | .ok (.eval expression rest) => do
      let parts ← segments whole true 0 [] expression
      let following ← segments whole inEval depth [] rest
      .ok (prepend literal (.eval parts :: following))
    | .ok (.simple content rest) => do
      let segment ← simple whole content
      let following ← segments whole inEval depth [] rest
      .ok (prepend literal (segment :: following))
  | c :: cs =>
    if inEval then segments whole inEval depth (c :: literal) cs
    else if c == '(' then segments whole inEval (depth + 1) (c :: literal) cs
    else if c == ')' then
      match depth with
      | 0 => .error (.invalid whole .unmatchedParen)
      | depth + 1 => segments whole inEval depth (c :: literal) cs
    else segments whole inEval depth (c :: literal) cs
termination_by cs => cs.length
decreasing_by
  · exact Nat.lt_succ_of_lt (Nat.lt_succ_self _)
  · have := cut_eval_length _h
    simp only [List.length_cons]
    omega
  · have := cut_eval_length _h
    simp only [List.length_cons]
    omega
  · have := cut_simple_length _h
    simp only [List.length_cons]
    omega
  · exact Nat.lt_succ_self _
  · exact Nat.lt_succ_self _
  · exact Nat.lt_succ_self _
  · exact Nat.lt_succ_self _

/-- The segments of an attribute text; an empty text is one empty segment. -/
def parse (text : String) : Except SubstitutionError (List Segment) :=
  (segments text false 0 [] text.toList).map fun found =>
    if found.isEmpty then [.text ""] else found

end Segment
end LaunchFile
