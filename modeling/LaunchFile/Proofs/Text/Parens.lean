/-!
# Proofs/Text/Parens — counting parentheses

`parensAfter?` counts the parentheses that are open behind a row, and fails where one closes that
was never opened; which members of the row are parentheses is a parameter, so that characters and
tokens are counted alike. Nothing closes too early when no beginning of the row holds more closing
parentheses than opening ones (`isSome_parensAfter?_iff`).
-/

namespace LaunchFile.Text

section

variable {α : Type} (opens closes : α → Bool)

/-- The parentheses that are open behind one member of a row. -/
def parenStep? (depth : Nat) (a : α) : Option Nat :=
  if opens a then some (depth + 1)
  else if closes a then if depth = 0 then none else some (depth - 1)
  else some depth

/-- The parentheses that are open behind a row when `depth` of them are open before it. -/
def parensAfter? (depth : Nat) (as : List α) : Option Nat :=
  as.foldlM (parenStep? opens closes) depth

variable {opens closes}

theorem parenStep?_opens {a : α} (h : opens a = true) (depth : Nat) :
    parenStep? opens closes depth a = some (depth + 1) :=
  if_pos h

theorem parenStep?_closes {a : α} (hopens : opens a = false) (h : closes a = true) (depth : Nat) :
    parenStep? opens closes (depth + 1) a = some depth := by
  simp [parenStep?, hopens, h]

theorem parenStep?_other {a : α} (hopens : opens a = false) (h : closes a = false) (depth : Nat) :
    parenStep? opens closes depth a = some depth := by
  simp [parenStep?, hopens, h]

theorem parensAfter?_cons {a : α} {depth depth' : Nat}
    (h : parenStep? opens closes depth a = some depth') (as : List α) :
    parensAfter? opens closes depth (a :: as) = parensAfter? opens closes depth' as := by
  rw [parensAfter?, List.foldlM_cons, h]
  rfl

theorem parensAfter?_append {as : List α} {depth depth' : Nat}
    (h : parensAfter? opens closes depth as = some depth') (bs : List α) :
    parensAfter? opens closes depth (as ++ bs) = parensAfter? opens closes depth' bs := by
  rw [parensAfter?, List.foldlM_append, ← parensAfter?, h]
  rfl

/-- **Nothing closes too early** when every beginning holds enough opening parentheses. -/
theorem isSome_parensAfter?_iff (hdistinct : ∀ a, opens a = true → closes a = false)
    {as : List α} {depth : Nat} : (parensAfter? opens closes depth as).isSome = true ↔
      ∀ front, front <+: as → front.countP closes ≤ depth + front.countP opens := by
  induction as generalizing depth with
  | nil => simp [parensAfter?, List.prefix_nil]
  | cons a as ih =>
    have hfront : (∀ front, front <+: a :: as →
        front.countP closes ≤ depth + front.countP opens) ↔
        ∀ front, front <+: as → (a :: front).countP closes ≤ depth + (a :: front).countP opens := by
      constructor
      · exact fun h front hfront => h _ (List.cons_prefix_cons.2 ⟨rfl, hfront⟩)
      · intro h front hfront
        rcases List.prefix_cons_iff.1 hfront with rfl | ⟨tail, rfl, htail⟩
        · exact Nat.zero_le _
        · exact h tail htail
    rw [hfront]
    cases hopens : opens a with
    | true =>
      rw [parensAfter?_cons (parenStep?_opens hopens depth), ih]
      refine forall₂_congr fun front _ => ?_
      rw [List.countP_cons_of_pos hopens, List.countP_cons_of_neg (by simp [hdistinct a hopens])]
      omega
    | false =>
      cases hcloses : closes a with
      | false =>
        rw [parensAfter?_cons (parenStep?_other hopens hcloses depth), ih]
        simp [hopens, hcloses]
      | true =>
        cases depth with
        | zero =>
          refine iff_of_false (by simp [parensAfter?, parenStep?, hopens, hcloses]) fun h => ?_
          simpa [hopens, hcloses] using h [] List.nil_prefix
        | succ depth =>
          rw [parensAfter?_cons (parenStep?_closes hopens hcloses depth), ih]
          refine forall₂_congr fun front _ => ?_
          rw [List.countP_cons_of_pos hcloses, List.countP_cons_of_neg (by simp [hopens])]
          omega

end

end LaunchFile.Text
