import LaunchFile.Proofs.Walk.Lockstep

/-!
# Proofs/Walk/Run — whole runs side by side

Two walks that match on the children of every root match on whole files, however files include one
another (`walkFile_agree`, by induction on the levels that are left), and so do the models that the
logs amount to (`interpretTree_agree`). The names that the first run resolves have to go along with
the renaming at every moment of it.
-/

namespace LaunchFile

section

variable {f : Renaming} {base base' : Log} {chain : List Path} {excused : LaunchError → Prop}
  {w : World} {strict : Bool} {scope scope' : Scope} {root root' : Element} {s s' : WalkState}
  {enter enter' : EnterFile} {S : Moment → Prop}

/-! ## Roots -/

theorem enterRoot_lockstep (h : scope.Renamed f scope') (he : root.Alike root') :
    Lockstep excused (WalkState.Beside f base base' chain) (Option.Rel (Scope.Renamed f))
      (WalkT.enterRoot w scope root) (WalkT.enterRoot { w with strict } scope' root') := by
  have hactive : root'.isActive w.look scope' = root.isActive w.look scope :=
    (he.isActive _ _).trans (h.isActive _)
  have hcheck : root'.checkRoot = root.checkRoot := by
    rw [Element.checkRoot, Element.checkRoot, he.tag, he.location]
  unfold WalkT.enterRoot
  rw [hcheck]
  refine .bind_eq (.result _) fun _ _ => ?_
  refine .bind_eq (WalkT.ofLaunch_lockstep (by rw [hactive]; exact .refl _)) fun active _ => ?_
  cases active with
  | true => exact .pure (.some (h.inside root root'))
  | false => exact .pure .none

theorem walkRoot_agree (hexact : f.exact) (hS : Region f w enter S)
    (hw : w.Excuses strict (Moment.RefusedIn w S) excused) (hexcused : ExcusedAnywhere excused)
    (henter : EnterFile.Agree excused f base base' chain S enter enter')
    (hroot : ∀ {inner t}, outcome (WalkT.enterRoot w scope root) s = (.ok (some inner), t) →
      S (.children root.tag inner root.children t))
    (h : scope.Renamed f scope') (he : root.Alike root')
    (hst : WalkState.Beside f base base' chain s s') :
    Outcome.Agree excused (WalkState.Beside f base base' chain) (Scope.Renamed f)
      (outcome (walkRoot w enter scope root) s)
      (outcome (walkRoot { w with strict } enter' scope' root') s') := by
  refine (enterRoot_lockstep h he s s' hst).bind fun inner inner' t t' hok hinner ht => ?_
  cases hinner with
  | none => exact ⟨h, ht⟩
  | some hinner =>
    rw [he.tag]
    exact walkChildren_agree hexact hS hw hexcused henter _ (hroot hok) hinner he.children ht

/-! ## Files -/

/-- A file on two sides, given how the files that it includes are walked. -/
theorem openFile_agree (hexact : f.exact) (hS : Region f w enter S)
    (hw : w.Excuses strict (Moment.RefusedIn w S) excused) (hexcused : ExcusedAnywhere excused)
    {path : Path}
    (henter : ∀ {tree}, readTree w path = .ok tree →
      EnterFile.Agree excused f base base' (chain ++ [path]) S enter enter')
    (hroot : ∀ {tree inner t}, readTree w path = .ok tree →
      outcome (WalkT.enterRoot w scope tree) (s.opened path) = (.ok (some inner), t) →
      S (.children tree.tag inner tree.children t))
    (h : scope.Renamed f scope') (hst : WalkState.Beside f base base' chain s s') :
    Outcome.Agree excused (WalkState.Beside f base base' chain) Eq
      (outcome (openFile w enter path scope) s)
      (outcome (openFile { w with strict } enter' path scope') s') := by
  have hread : Lockstep excused (WalkState.Beside f base base' chain) Eq
      (liftM (readTree w path) : WalkM Element) (liftM (readTree { w with strict } path)) :=
    .result (readTree w path)
  refine (hread s s' hst).bind fun tree tree' t t' hok hsame ht => ?_
  subst hsame
  obtain ⟨htree, rfl⟩ := eq_ok_of_outcome hok
  refine (WalkT.within_agree (R := Scope.Renamed f) ht fun hopened => ?_).bind
    fun _ _ u u' _ _ hu => ⟨rfl, hu⟩
  exact walkRoot_agree hexact hS hw hexcused (henter htree) (fun hok => hroot htree hok) h
    (.refl tree) hopened

/-- Moments, with the levels that files may still nest, that lead to each other only, and whose
names go along with a renaming. -/
structure Regions (f : Renaming) (w : World) (S : Nat → Moment → Prop) : Prop where
  region : ∀ budget, Region f w (walkFile w budget) (S budget)
  into : ∀ {budget path top s tree inner t}, S (budget + 1) (.opening path top s) →
    readTree w path = .ok tree →
    outcome (WalkT.enterRoot w top tree) (s.opened path) = (.ok (some inner), t) →
    S budget (.children tree.tag inner tree.children t)

/-- **Included files on two sides.** The induction is on the levels that are left. -/
theorem walkFile_agree {S : Nat → Moment → Prop} (hexact : f.exact) (hS : Regions f w S)
    (hw : w.Excuses strict (fun err => ∃ levels, Moment.RefusedIn w (S levels) err) excused)
    (hexcused : ExcusedAnywhere excused) :
    ∀ (budget : Nat) (chain : List Path),
      EnterFile.Agree excused f base base' chain (S budget) (walkFile w budget)
        (walkFile { w with strict } budget)
  | 0, chain, path, inner, inner', s, s', hm, h, hst => by
    refine (WalkT.chain_lockstep s s' hst).bind fun c c' t t' _ hchains ht => ?_
    obtain ⟨rfl, rfl⟩ := hchains
    exact .inr ⟨rfl, ht⟩
  | budget + 1, chain, path, inner, inner', s, s', hm, h, hst =>
    openFile_agree hexact (hS.region budget) (hw.of_imp fun _ herr => ⟨budget, herr⟩) hexcused
      (fun _ => walkFile_agree hexact hS hw hexcused budget _) (hS.into hm) h hst

/-! ## Models -/

/-- The models of a tree on two sides, given how the files that it includes are walked. -/
theorem interpretWith_agree (hordered : f.ordered) (hS : Region f w enter S)
    (hw : w.Excuses strict (Moment.RefusedIn w S) excused) (hexcused : ExcusedAnywhere excused)
    (henter : EnterFile.Agree excused f [] [] scope.file.toList S enter enter')
    (h : scope.Renamed f scope') (he : root.Alike root') (registry : AnonRegistry)
    (hroot : ∀ {inner t}, outcome (WalkT.enterRoot w scope root) (.start registry scope) =
        (.ok (some inner), t) →
      S (.children root.tag inner root.children t)) :
    Outcome.Agree excused Eq (fun m m' => m' = m.mapNames f.map)
      (outcome (interpretWith w enter scope root) registry)
      (outcome (interpretWith { w with strict } enter' scope' root') registry) := by
  have hstart : WalkState.Beside f [] [] scope.file.toList (.start registry scope)
      (.start registry scope') :=
    ⟨rfl, rfl, congrArg Option.toList h.file, rfl, ⟨[], rfl, rfl, fun _ hmem => nomatch hmem⟩⟩
  have hexact := f.exact_of_ordered hordered
  have hwalk := walkRoot_agree hexact hS hw hexcused henter hroot h he hstart
  rw [outcome_interpretWith, outcome_interpretWith]
  generalize outcome (walkRoot w _ scope root) _ = o at hwalk ⊢
  generalize outcome (walkRoot { w with strict } _ scope' root') _ = o' at hwalk ⊢
  rcases o with ⟨e | behind, t⟩ <;> rcases o' with ⟨e' | behind', t'⟩
  · exact Or.imp_right (fun h => ⟨h.1, h.2.registry.symm⟩) hwalk
  · exact hwalk
  · exact hwalk
  · obtain ⟨hbehind, hbeside⟩ := hwalk
    obtain ⟨log, hlog, hlog', hadmitted⟩ := hbeside.log
    rw [List.nil_append] at hlog hlog'
    refine ⟨?_, hbeside.registry.symm⟩
    simp only [hlog, hlog', hbehind.args_eq hordered, Model.ofLog_mapNames f hadmitted]

/-- **Two runs of a tree side by side.** -/
theorem interpretTree_agree {S : Nat → Moment → Prop} (hordered : f.ordered)
    (hS : Regions f w S)
    (hw : w.Excuses strict (fun err => ∃ levels, Moment.RefusedIn w (S levels) err) excused)
    (hexcused : ExcusedAnywhere excused)
    (h : scope.Renamed f scope') (he : root.Alike root') (registry : AnonRegistry)
    (hroot : ∀ {inner t}, outcome (WalkT.enterRoot w scope root) (.start registry scope) =
        (.ok (some inner), t) →
      S (w.files.size + 1) (.children root.tag inner root.children t)) :
    Outcome.Agree excused Eq (fun m m' => m' = m.mapNames f.map)
      (outcome (interpretTree w scope root) registry)
      (outcome (interpretTree { w with strict } scope' root') registry) :=
  interpretWith_agree hordered (hS.region _) (hw.of_imp fun _ herr => ⟨_, herr⟩) hexcused
    (walkFile_agree (f.exact_of_ordered hordered) hS hw hexcused (w.files.size + 1) _) h he
    registry hroot

end
end LaunchFile
