import LaunchFile.Proofs.Lockstep
import LaunchFile.Proofs.Expr.Booleans
import Mathlib.Data.String.Basic
import Mathlib.Order.OrderDual

/-!
# Proofs/Expr/Extremum — the least and the greatest of some values

A champion is kept until a later value beats it. Among strings, and among whole numbers and
booleans, a key orders the values (`RankedBy`), and the champion is at all times the earliest of the
values seen that has the least key (`FirstLeast`); for the greatest value the order of keys is
turned around.
A string beside any other value ends the search, since the champion is always of the kind of the
values seen (`best_eq_error`).
-/

namespace LaunchFile.Expr

/-! ## Kinds of values -/

/-- Whole numbers and booleans. -/
def Value.isWhole : Value → Bool
  | .int _ | .bool _ => true
  | _ => false

/-- The number that a whole value stands for, a boolean being 0 or 1. -/
def Value.whole : Value → Int
  | .int n => n.toInt
  | .bool true => 1
  | _ => 0

/-- All values are strings, or all are whole numbers or booleans. -/
def AreAlike (values : List Value) : Prop :=
  (∀ v ∈ values, v.isString) ∨ ∀ v ∈ values, v.isWhole

/-- The earliest of the values that stand in `op` to all of them. -/
def IsEarliest (op : CompareOp) (values : List Value) (v : Value) : Prop :=
  ∃ before after, values = before ++ v :: after ∧
    (∀ w ∈ values, compareValues op v w = .ok true) ∧
    ∀ u ∈ before, ∃ w ∈ values, compareValues op u w = .ok false

/-! ## Keys -/

section

variable {κ : Type} [LinearOrder κ] {key : Value → κ} {kind : Value → Prop}

/-- The earliest of the values with the least key. -/
def FirstLeast (key : Value → κ) (values : List Value) (v : Value) : Prop :=
  ∃ before after, values = before ++ v :: after ∧
    (∀ u ∈ before, key v < key u) ∧ ∀ w ∈ after, key v ≤ key w

/-- The values of a kind stand to each other as their keys do. -/
def RankedBy (kind : Value → Prop) (key : Value → κ) : Prop :=
  ∀ v w, kind v → kind w → rank v w = .ordered (compare (key v) (key w))

namespace FirstLeast

variable {values : List Value} {v w : Value}

/-- The first least value is least. -/
theorem le (h : FirstLeast key values v) (hw : w ∈ values) : key v ≤ key w := by
  obtain ⟨before, after, rfl, hbefore, hafter⟩ := h
  rcases List.mem_append.1 hw with hw | hw
  · exact (hbefore w hw).le
  · rcases List.mem_cons.1 hw with rfl | hw
    · exact le_rfl
    · exact hafter w hw

/-- A value with a smaller key takes the champion's place. -/
theorem beaten (h : FirstLeast key values v) (hlt : key w < key v) :
    FirstLeast key (values ++ [w]) w :=
  ⟨values, [], rfl, fun _ hu => hlt.trans_le (h.le hu), nofun⟩

/-- A later value with the same key does not. -/
theorem kept (h : FirstLeast key values v) (hle : key v ≤ key w) :
    FirstLeast key (values ++ [w]) v := by
  obtain ⟨before, after, rfl, hbefore, hafter⟩ := h
  refine ⟨before, after ++ [w], by simp, hbefore, ?_⟩
  exact List.forall_mem_append.2 ⟨hafter, List.forall_mem_singleton.2 hle⟩

/-- What is first by its key is the earliest that stands so to all. -/
theorem isEarliest {op : CompareOp}
    (hop : ∀ v w, kind v → kind w → compareValues op v w = .ok (decide (key v ≤ key w)))
    (hkind : ∀ w ∈ values, kind w) (h : FirstLeast key values v) : IsEarliest op values v := by
  have hle {w : Value} (hw : w ∈ values) : key v ≤ key w := h.le hw
  obtain ⟨before, after, rfl, hbefore, -⟩ := h
  have hv : v ∈ before ++ v :: after := List.mem_append_right _ List.mem_cons_self
  refine ⟨before, after, rfl, fun w hw => ?_, fun u hu => ⟨v, hv, ?_⟩⟩
  · rw [hop v w (hkind v hv) (hkind w hw), decide_eq_true (hle hw)]
  · rw [hop u v (hkind u (List.mem_append_left _ hu)) (hkind v hv),
      decide_eq_false (hbefore u hu).not_ge]

end FirstLeast

/-! ## The champion -/

/-- **The champion is the earliest with the least key** among the values seen so far, so that it is
so among all values in the end. -/
theorem best_eq_ok {beats : CompareOp}
    (hbeats : ∀ v w, kind v → kind w → compareValues beats v w = .ok (decide (key v < key w))) :
    ∀ {rest seen : List Value} {champion : Value}, (∀ v ∈ seen ++ rest, kind v) →
      FirstLeast key seen champion →
      ∃ v, best beats champion rest = .ok v ∧ FirstLeast key (seen ++ rest) v
  | [], seen, champion, _, h => ⟨champion, rfl, by rwa [List.append_nil]⟩
  | challenger :: rest, seen, champion, hkind, h => by
    have hchampion : kind champion := by
      obtain ⟨before, after, rfl, -, -⟩ := h
      exact hkind champion (by simp)
    have hmoved : seen ++ challenger :: rest = (seen ++ [challenger]) ++ rest := by simp
    rw [hmoved] at hkind ⊢
    rw [best, hbeats challenger champion (hkind challenger (by simp)) hchampion]
    by_cases hlt : key challenger < key champion
    · rw [decide_eq_true hlt]
      exact best_eq_ok hbeats hkind (h.beaten hlt)
    · rw [decide_eq_false hlt]
      exact best_eq_ok hbeats hkind (h.kept (not_lt.1 hlt))

/-- The search finds the earliest of the best. The induction is on the row, with what was seen so
far in front. -/
theorem best_isEarliest {beats reaches : CompareOp} (key : Value → κ)
    (hbeats : ∀ v w, kind v → kind w → compareValues beats v w = .ok (decide (key v < key w)))
    (hreaches : ∀ v w, kind v → kind w →
      compareValues reaches v w = .ok (decide (key v ≤ key w)))
    {first : Value} {rest : List Value} (hkind : ∀ v ∈ [first] ++ rest, kind v) :
    ∃ v, best beats first rest = .ok v ∧ IsEarliest reaches (first :: rest) v := by
  have hfirst : FirstLeast key [first] first := ⟨[], [], rfl, nofun, nofun⟩
  obtain ⟨v, hbest, hv⟩ := best_eq_ok hbeats hkind hfirst
  exact ⟨v, hbest, hv.isEarliest hreaches hkind⟩

namespace RankedBy

variable (h : RankedBy kind key) {first : Value} {rest : List Value}

include h

/-- Values of a kind compare as their keys do. -/
theorem compareValues_eq (op : CompareOp) {v w : Value} (hv : kind v) (hw : kind w) :
    compareValues op v w = .ok (op.holds (compare (key v) (key w))) := by
  have hrank := h v w hv hw
  rw [compareValues]
  simp only [hrank]

/-- Values of a kind have a least one, and it is found first. -/
theorem best_lt (hkind : ∀ v ∈ first :: rest, kind v) :
    ∃ v, best .lt first rest = .ok v ∧ IsEarliest .le (first :: rest) v := by
  refine best_isEarliest key (fun v w hv hw => ?_) (fun v w hv hw => ?_) hkind
  all_goals
    rw [h.compareValues_eq _ hv hw]
    refine congrArg Except.ok (Bool.eq_iff_iff.2 ?_)
    simp [CompareOp.holds, compare_lt_iff_lt, compare_gt_iff_gt]

/-- The greatest value is the least when the order of keys is turned around. -/
theorem best_gt (hkind : ∀ v ∈ first :: rest, kind v) :
    ∃ v, best .gt first rest = .ok v ∧ IsEarliest .ge (first :: rest) v := by
  refine best_isEarliest (fun v => OrderDual.toDual (key v)) (fun v w hv hw => ?_)
    (fun v w hv hw => ?_) hkind
  all_goals
    rw [h.compareValues_eq _ hv hw]
    refine congrArg Except.ok (Bool.eq_iff_iff.2 ?_)
    simp [CompareOp.holds, compare_lt_iff_lt, compare_gt_iff_gt]

end RankedBy

end

/-! ## Kinds with keys -/

/-- Strings stand in the order of their texts. -/
theorem rankedBy_text : RankedBy (fun v => v.isString) Value.text := fun v w hv hw => by
  cases v with
  | str a =>
    cases w with
    | str b => exact congrArg Ranking.ordered (LinearOrder.compare_eq_compareOfLessAndEq a b).symm
    | _ => cases hw
  | _ => cases hv

/-- A whole value is no string. -/
theorem not_isString_of_isWhole {v : Value} (h : v.isWhole) : ¬ v.isString := by
  cases v with
  | int | bool => exact Bool.false_ne_true
  | _ => cases h

/-- A whole value is a number. -/
theorem number?_of_isWhole {v : Value} (h : v.isWhole) :
    ∃ n, v.number? = some (.int n) ∧ n.toInt = v.whole := by
  cases v with
  | int n => exact ⟨n, rfl, rfl⟩
  | bool b => exact ⟨if b then 1 else 0, rfl, by cases b <;> rfl⟩
  | _ => cases h

/-- Whole values stand in the order of their numbers. -/
theorem rankedBy_whole : RankedBy (fun v => v.isWhole) Value.whole := fun v w hv hw => by
  have hstrings : ¬ (v.isString ∧ w.isString) := fun h => not_isString_of_isWhole hv h.1
  obtain ⟨m, hm, hv⟩ := number?_of_isWhole hv
  obtain ⟨n, hn, hw⟩ := number?_of_isWhole hw
  rw [rank_of_number? hstrings, hm, hn, ← hv, ← hw]

/-! ## Strings beside other values -/

/-- Floats are never unrelated. -/
theorem rankFloats_ne_unrelated (a b : Float) : rankFloats a b ≠ .unrelated := by
  unfold rankFloats
  split_ifs <;> nofun

/-- Only strings are unrelated to numbers. -/
theorem rank_eq_unrelated_iff {v w : Value} : rank v w = .unrelated ↔ v.isString ≠ w.isString := by
  cases v <;> cases w <;>
    simp [rank, Value.number?, Value.isString, rankFloats_ne_unrelated]

/-- Values of one kind can be compared, others cannot be asked for their order. -/
theorem compareValues_lt_or_gt {op : CompareOp} (hop : op = .lt ∨ op = .gt) (v w : Value) :
    (v.isString = w.isString ∧ ∃ holds, compareValues op v w = .ok holds) ∨
    (v.isString ≠ w.isString ∧ compareValues op v w =
      .error (.typeMismatch (.operands "comparison" v.typeName w.typeName))) := by
  by_cases h : v.isString = w.isString
  · refine .inl ⟨h, ?_⟩
    have hrank : rank v w ≠ .unrelated := fun hrank => rank_eq_unrelated_iff.1 hrank h
    unfold compareValues
    split
    · exact ⟨_, rfl⟩
    · exact ⟨_, rfl⟩
    all_goals contradiction
  · refine .inr ⟨h, ?_⟩
    have hrank := rank_eq_unrelated_iff.2 h
    rcases hop with rfl | rfl <;> simp only [compareValues, hrank]

/-- Of two kinds of values, one is not that of the first. -/
theorem exists_ne_first {first : Value} {rest : List Value}
    (h : ∃ v ∈ first :: rest, ∃ w ∈ first :: rest, v.isString ≠ w.isString) :
    ∃ w ∈ rest, first.isString ≠ w.isString := by
  obtain ⟨v, hv, w, hw, hne⟩ := h
  by_cases hfirst : first.isString = v.isString
  · have hw : w ∈ rest := (List.mem_cons.1 hw).resolve_left fun h => hne (h ▸ hfirst.symm)
    exact ⟨w, hw, hfirst ▸ hne⟩
  · exact ⟨v, (List.mem_cons.1 hv).resolve_left fun h => hfirst (h ▸ rfl), hfirst⟩

/-- **A value of another kind than the champion's ends the search**, wherever it stands. -/
theorem best_eq_error {beats : CompareOp} (hbeats : beats = .lt ∨ beats = .gt) :
    ∀ {rest : List Value} {champion : Value},
      (∃ w ∈ rest, champion.isString ≠ w.isString) →
      ∃ fault, best beats champion rest = .error (.typeMismatch fault)
  | [], _, h => by simp at h
  | challenger :: rest, champion, h => by
    rw [best]
    rcases compareValues_lt_or_gt hbeats challenger champion with
      ⟨hsame, holds, hcompare⟩ | ⟨hother, hcompare⟩
    · obtain ⟨w, hw, hne⟩ := h
      have hw : w ∈ rest := (List.mem_cons.1 hw).resolve_left fun h => hne (h ▸ hsame.symm)
      rw [hcompare]
      cases holds
      · exact best_eq_error hbeats ⟨w, hw, hne⟩
      · exact best_eq_error hbeats ⟨w, hw, hsame ▸ hne⟩
    · rw [hcompare]
      exact ⟨_, rfl⟩

/-! ## Calls -/

section

variable {σ : Type}

/-- The least value is searched for with `<`. -/
theorem outcome_min (b : Bindings σ) (s : σ) (first : Value) (rest : List Value) :
    outcome (applyCall b "min" (first :: rest)) s = (best .lt first rest, s) := by
  have harity : arity? "min" = some .atLeastOne := rfl
  have hpure : pureCall? "min" (first :: rest) = some (best .lt first rest) := rfl
  simp only [applyCall, harity, hpure]
  rfl

/-- The greatest value is searched for with `>`. -/
theorem outcome_max (b : Bindings σ) (s : σ) (first : Value) (rest : List Value) :
    outcome (applyCall b "max" (first :: rest)) s = (best .gt first rest, s) := by
  have harity : arity? "max" = some .atLeastOne := rfl
  have hpure : pureCall? "max" (first :: rest) = some (best .gt first rest) := rfl
  simp only [applyCall, harity, hpure]
  rfl

/-- **`min` and `max` choose the earliest of the extremal arguments** among strings and among whole
numbers and booleans, and refuse any list that has a string and another value in it. -/
theorem extremum_earliest (b : Bindings σ) (s : σ) (args : List Value) :
    (args ≠ [] → AreAlike args →
      (∃ v, outcome (applyCall b "min" args) s = (.ok v, s) ∧ IsEarliest .le args v) ∧
      ∃ v, outcome (applyCall b "max" args) s = (.ok v, s) ∧ IsEarliest .ge args v) ∧
    ((∃ v ∈ args, ∃ w ∈ args, v.isString ≠ w.isString) →
      (∃ fault, outcome (applyCall b "min" args) s = (.error (.typeMismatch fault), s)) ∧
      ∃ fault, outcome (applyCall b "max" args) s = (.error (.typeMismatch fault), s)) := by
  cases args with
  | nil => simp
  | cons first rest =>
    simp only [outcome_min, outcome_max, Prod.mk.injEq, and_true]
    refine ⟨fun _ halike => ?_, fun hmixed => ?_⟩
    · rcases halike with hkind | hkind
      · exact ⟨rankedBy_text.best_lt hkind, rankedBy_text.best_gt hkind⟩
      · exact ⟨rankedBy_whole.best_lt hkind, rankedBy_whole.best_gt hkind⟩
    · have hother := exists_ne_first hmixed
      exact ⟨best_eq_error (.inl rfl) hother, best_eq_error (.inr rfl) hother⟩

/-- The number 1 and the boolean that counts as 1 stand in each other's way, and the first of them
is chosen; a string far behind two numbers is still found. -/
theorem extremum_earliest_ties :
    let nothing : Bindings Unit :=
      ⟨fun _ => .ok none, fun _ => pure none, fun _ => pure none, none, pure⟩
    let whole : List Value := [.int 3, .bool true, .int 1]
    let mixed : List Value := [.int 3, .bool true, .str "1"]
    AreAlike whole ∧ IsEarliest .le whole (.bool true) ∧
      outcome (applyCall nothing "min" whole) () = (.ok (.bool true), ()) ∧
      ∃ fault, outcome (applyCall nothing "max" mixed) () = (.error (.typeMismatch fault), ()) := by
  intro nothing whole mixed
  have halike : AreAlike whole := .inr (by decide)
  have hmixed : ∃ v ∈ mixed, ∃ w ∈ mixed, v.isString ≠ w.isString :=
    ⟨.str "1", by simp [mixed], .int 3, by simp [mixed], by decide⟩
  obtain ⟨⟨v, hmin, hv⟩, -⟩ := (extremum_earliest nothing () whole).1 nofun halike
  have hrun : outcome (applyCall nothing "min" whole) () = (.ok (.bool true), ()) := rfl
  obtain rfl : Value.bool true = v := by
    rw [hrun] at hmin
    cases hmin
    rfl
  exact ⟨halike, hv, hrun, ((extremum_earliest nothing () mixed).2 hmixed).2⟩

end

end LaunchFile.Expr
