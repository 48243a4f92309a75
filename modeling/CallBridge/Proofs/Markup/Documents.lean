import CallBridge.Proofs.Markup.Content
import CallBridge.Proofs.Markup.Declaration

/-!
# Reading a whole document

`parse_of_writesDocument`: a plain tree is read back from every document that writes it.
-/

namespace CallBridge.Markup

variable {f : Form} {tree : Tree} {cs : List Char}

/-! ## The first character -/

/-- Outside of all elements, no trees begin with a byte order mark. -/
theorem Writes.head_ne_mark {brackets : Nat} {trees : List Tree}
    (hwritten : Writes f false brackets trees cs) : cs.head? ≠ some '\ufeff' := by
  cases hwritten with
  | nil => simp
  | blank hc _ =>
    rintro h
    rw [Option.some.inj h] at hc
    exact absurd hc (by decide)
  | comment => simp [Token.text]
  | instruction htext => cases htext <;> simp
  | element => simp
  | empty => simp

theorem WritesDocument.head_ne_mark (hwritten : WritesDocument tree cs) :
    cs.head? ≠ some '\ufeff' := by
  cases hwritten with
  | bare hroot => exact hroot.head_ne_mark
  | declared hdeclaration hroot =>
    cases hdeclaration
    simp

theorem opening_eq (h : cs.head? ≠ some '\ufeff') : opening cs = ({}, cs) := by
  unfold opening
  split
  · exact absurd rfl h
  · rfl

/-! ## The end -/

/-- A document may end behind its root element. -/
theorem Shows.finish {v : View} (hframes : v.frames = []) {r : Reader}
    (hr : Shows ((v.add tree).on (.inside []) .content) r) :
    ∃ root, r.finish = .ok root ∧ root.tree = tree := by
  have hnil : r.frames = [] :=
    hr.frames_eq_nil_iff.mpr ((View.frames_add_eq_nil_iff v tree).mpr hframes)
  have hplace : r.place = .content := hr.place_eq
  have hscanner : r.scanner = .inside [] := congrArg View.scanner hr.view
  have hroot : r.root.map Element.tree = some tree := by
    have h : r.root.map Element.tree = (v.add tree).root := congrArg View.root hr.view
    rw [h, View.add, hframes]
  obtain ⟨root, hsome, htree⟩ := Option.map_eq_some_iff.mp hroot
  refine ⟨root, ?_, htree⟩
  simp only [Reader.finish, hplace, hnil, hsome, hscanner]
  rfl

/-! ## Documents -/

theorem reads_document (hplain : tree.IsPlain) (hwritten : WritesDocument tree cs) :
    ∃ label revised encoding, Reads (fun r => r = {}) cs
      (Shows (((opened revised label encoding).add tree).on (.inside []) .content)) := by
  have hroot : ∀ {f label ds}, Writes f false 0 [tree] ds →
      Reads (Shows ((opened f.revised label f.encoding).on (.inside []) .content)) ds
        (Shows (((opened f.revised label f.encoding).add tree).on (.inside []) .content)) := by
    intro f label ds hds r hr
    have htrees : ∀ t ∈ [tree], t.IsPlain := by simpa using hplain
    obtain ⟨r', hread, brackets, hr'⟩ := reads_content hds htrees (isOf_opened f label)
      (iff_of_true rfl rfl) r (between_of_shows hr 0)
    exact ⟨r', hread, hr'.shows ((View.frames_addAll_eq_nil_iff _ [tree]).mpr rfl)⟩
  cases hwritten with
  | bare hds =>
    refine ⟨none, false, .utf8, ?_⟩
    rintro _ rfl
    exact hroot hds _ shows_opened
  | @declared f _ _ hdeclaration hds =>
    obtain ⟨label, hopen⟩ := reads_declaration hdeclaration
    exact ⟨label, f.revised, f.encoding, hopen.append (hroot hds)⟩

/-- A plain tree is read back from every document that writes it. -/
theorem parse_of_writesDocument (hplain : tree.IsPlain) {text : String}
    (hwritten : WritesDocument tree text.toList) :
    ∃ root, parse text = .ok root ∧ root.tree = tree := by
  obtain ⟨label, revised, encoding, hreads⟩ := reads_document hplain hwritten
  obtain ⟨r, htake, hr⟩ := hreads {} rfl
  obtain ⟨root, hfinish, htree⟩ := hr.finish rfl
  have hread : read text.toList = .ok root := by
    rw [read, opening_eq hwritten.head_ne_mark]
    simp only [htake, bind, Except.bind, hfinish]
  exact ⟨root, by rw [parse, hread], htree⟩

end CallBridge.Markup
