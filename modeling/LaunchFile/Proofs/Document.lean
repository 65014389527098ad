import LaunchFile.Except
import LaunchFile.Proofs.Faults.Read

/-!
# Proofs/Document — the elements of a document, and the places of errors in it

A well-formed text has a tree of elements, whatever its root is called (`Element.ofText?`), and all
of them have places in the file that labels the text (`Element.IsIn.file_eq`). An error stands in a
document if it has the place of one of its elements, or else says that there are none
(`LaunchError.StandsIn`); what is wrong when a text is read stands in it.
-/

namespace LaunchFile

/-! ## Roots -/

namespace Xml

def Node.IsElement : Node → Prop
  | .element .. => True
  | _ => False

/-- The root is an element, once there is one. -/
def Reading.RootIsElement (r : Reading) : Prop :=
  ∀ node, r.root = some node → node.IsElement

namespace Reading.RootIsElement

variable {r r' : Reading}

/-- Only what stands in no other element becomes the root. -/
theorem add (h : r.RootIsElement) {node : Node} (hnode : r.frames = [] → node.IsElement) :
    (r.add node).RootIsElement := by
  unfold Reading.add
  split
  · rename_i hframes
    exact fun _ hroot => Option.some.inj hroot ▸ hnode hframes
  · exact h

theorem step (h : r.RootIsElement) {token : Token} (hstep : r.step token = .ok r') :
    r'.RootIsElement := by
  cases token with
  | openTag name attributes closed place =>
    obtain ⟨frame, _, hread⟩ := Except.bind_eq_ok hstep
    obtain rfl := Except.ok.inj hread
    split
    · exact h.add fun _ => trivial
    · exact h
  | closeTag name place =>
    rw [Reading.step] at hstep
    split at hstep
    · cases hstep
    · rename_i f outer _
      split at hstep
      · obtain rfl := Except.ok.inj hstep
        have houter : Reading.RootIsElement { r with frames := outer } := h
        exact houter.add fun _ => trivial
      · cases hstep
  | text value blank place =>
    rw [Reading.step] at hstep
    split at hstep
    · rename_i hopen
      obtain rfl := Except.ok.inj hstep
      exact h.add fun hnone => by simp [hnone] at hopen
    · split at hstep
      · exact Except.ok.inj hstep ▸ h
      · cases hstep
  | aside =>
    obtain rfl := Except.ok.inj hstep
    split
    · exact h
    · rename_i hopen
      exact h.add fun hnone => by simp [hnone] at hopen

theorem foldlM : ∀ {tokens : List Token} {r r' : Reading},
    tokens.foldlM Reading.step r = .ok r' → r.RootIsElement → r'.RootIsElement
  | [], _, _, hread, h => Except.ok.inj hread ▸ h
  | _ :: _, _, _, hread, h => by
    rw [List.foldlM_cons] at hread
    obtain ⟨_, hstep, hread⟩ := Except.bind_eq_ok hread
    exact foldlM hread (h.step hstep)

end Reading.RootIsElement

/-- **The root of a document is an element.** -/
theorem isElement_of_parse {source : String} {root : Node} (h : parse source = .ok root) :
    root.IsElement := by
  obtain ⟨tokens, _, h⟩ := Except.bind_eq_ok h
  obtain ⟨r, hread, h⟩ := Except.bind_eq_ok h
  have hroot := Reading.RootIsElement.foldlM hread nofun
  split at h
  · rename_i found _ hfound
    exact Except.ok.inj h ▸ hroot found hfound
  · cases h
  · cases h

end Xml

/-! ## Elements -/

namespace Element

/-- The tree of a text that is well formed. -/
def ofText? (text : String) (label : Option Path) : Option Element :=
  match Xml.parse text with
  | .error _ => none
  | .ok root => ofNode? label root

/-- An element of a tree. -/
inductive IsIn (root : Element) : Element → Prop
  | root : IsIn root root
  | child {e c : Element} : IsIn root e → c ∈ e.children → IsIn root c

variable {text : String} {label : Option Path} {root e c : Element}

theorem IsIn.eq_or_child (h : root.IsIn e) : e = root ∨ ∃ c ∈ root.children, c.IsIn e := by
  induction h with
  | root => exact .inl rfl
  | @child e x _ hx ih =>
    rcases ih with rfl | ⟨c, hc, hin⟩
    · exact .inr ⟨x, hx, .root⟩
    · exact .inr ⟨c, hc, .child hin hx⟩

mutual

theorem file_of_ofNode? : ∀ {node : Xml.Node} {root e : Element},
    ofNode? label node = some root → root.IsIn e → e.location.file = label
  | .element name attributes children place, root, e, h, he => by
    rw [ofNode?] at h
    obtain rfl := Option.some.inj h
    rcases he.eq_or_child with rfl | ⟨c, hc, he⟩
    · rfl
    · exact file_of_mem_ofNodes hc he
  | .text _, _, _, h, _ | .aside, _, _, h, _ => by
    rw [ofNode?] at h
    · cases h
    · nofun

theorem file_of_mem_ofNodes : ∀ {nodes : List Xml.Node} {root e : Element},
    root ∈ ofNodes label nodes → root.IsIn e → e.location.file = label
  | [], _, _, h, _ => by
    rw [ofNodes] at h
    cases h
  | node :: rest, root, e, h, he => by
    rw [ofNodes] at h
    split at h
    · rename_i first hfirst
      rcases List.mem_cons.1 h with rfl | h
      · exact file_of_ofNode? hfirst he
      · exact file_of_mem_ofNodes h he
    · exact file_of_mem_ofNodes h he

end

/-- **All elements of a document have their places in its file.** -/
theorem IsIn.file_eq (hroot : ofText? text label = some root) (h : root.IsIn e) :
    e.location.file = label := by
  rw [ofText?] at hroot
  split at hroot
  · cases hroot
  · exact file_of_ofNode? hroot h

theorem ofText?_of_parse (h : Element.parse text label = .ok root) :
    ofText? text label = some root := by
  rw [parse] at h
  rw [ofText?]
  cases hparse : Xml.parse text with
  | error place =>
    rw [hparse] at h
    cases h
  | ok node =>
    rw [hparse] at h
    dsimp only at h ⊢
    cases hfound : ofNode? label node with
    | none =>
      rw [hfound] at h
      cases h
    | some found =>
      rw [hfound] at h
      obtain ⟨_, _, h⟩ := Except.bind_eq_ok h
      exact congrArg some (Except.ok.inj h)

end Element

/-! ## Errors -/

/-- An error at the place of an element of a document, or at the place where the document is not
well formed. -/
inductive LaunchError.StandsIn (text : String) (label : Option Path) (err : LaunchError) : Prop
  | element {root e : Element} : Element.ofText? text label = some root → root.IsIn e →
    err.location = some e.location → StandsIn text label err
  | notWellFormed {place : Xml.Place} : Xml.parse text = .error place →
    err = ⟨.malformedXml .notWellFormed, some ⟨label, place.line, place.column⟩⟩ →
    StandsIn text label err

variable {text : String} {label : Option Path} {err : LaunchError}

theorem LaunchError.StandsIn.exists_location (h : err.StandsIn text label) :
    ∃ location, err.location = some location ∧ location.file = label := by
  cases h with
  | element hroot he hlocation => exact ⟨_, hlocation, he.file_eq hroot⟩
  | notWellFormed _ herr => exact ⟨_, congrArg LaunchError.location herr, rfl⟩

/-- **What is wrong with a text stands in it.** -/
theorem Element.standsIn_of_parse (h : Element.parse text label = .error err) :
    err.StandsIn text label := by
  rw [parse] at h
  cases hparse : Xml.parse text with
  | error place =>
    rw [hparse] at h
    exact .notWellFormed hparse (Except.error.inj h).symm
  | ok node =>
    rw [hparse] at h
    dsimp only at h
    cases hfound : ofNode? label node with
    | none =>
      cases node with
      | element =>
        rw [ofNode?] at hfound
        cases hfound
      | text | aside => exact (Xml.isElement_of_parse hparse).elim
    | some e =>
      have hroot : ofText? text label = some e := by rw [ofText?, hparse, ← hfound]
      rw [hfound] at h
      dsimp only at h
      refine .element hroot .root ?_
      unfold checkRoot at h
      split at h
      · cases h
      · exact Except.error.inj h ▸ rfl

end LaunchFile
