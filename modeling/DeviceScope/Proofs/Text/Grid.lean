import Mathlib.Data.List.Forall2
import DeviceScope.Text.Grid

/-!
# What a grid shows

A reader of a grid looks for the bars. Between two of them stands a text with blanks around it, and
what stands between the same two bars from the top to the bottom is a column, which is equally wide
everywhere (`Grid.Barred`). A text of several lines goes on in the next line of its row
(`Grid.IsRow`). All else are rules, which have no bar (`Grid.IsRule`).

`Grid.IsTable` says this of a whole grid without reference to how one is drawn, and what is drawn is
such a grid (`Grid.isTable_draw`).
-/

namespace DeviceScope.Grid

/-- The lines of a text. -/
structure AreLines (text : String) (lines : List (List Char)) : Prop where
  ne_nil : lines ≠ []
  whole : List.intercalate ['\n'] lines = text.toList
  single : ∀ line ∈ lines, '\n' ∉ line

/-- A line with these contents between its bars, each one with a blank on either side and with more
blanks behind it up to the width of its column. -/
inductive Barred : List Nat → List (List Char) → List Char → Prop where
  | bar : Barred [] [] ['│']
  | cell {width blanks : Nat} {widths : List Nat} {content rest : List Char}
    {contents : List (List Char)} (hwidth : Width.ofText content + blanks = width)
    (h : Barred widths contents rest) :
    Barred (width :: widths) (content :: contents)
      ('│' :: ' ' :: (content ++ List.replicate blanks ' ' ++ ' ' :: rest))

/-- **The lines of a row of texts.** In each of them stand the lines of the texts at this height,
and nothing for a text that has no more lines; there are as many as the longest text has. -/
inductive IsRow (widths : List Nat) (texts : List String) (rowLines : List (List Char)) : Prop where
  | mk {cells : List (List (List Char))} (hcells : List.Forall₂ AreLines texts cells)
    (hlines : ∀ index line, rowLines[index]? = some line →
      Barred widths (cells.map fun cell => cell.getD index []) line)
    (hheight : ∀ height, rowLines.length ≤ height ↔ ∀ cell ∈ cells, cell.length ≤ height)

/-- What rules are drawn with. -/
def ruleChars : List Char := ['─', '╭', '┬', '╮', '├', '┼', '┤', '╰', '┴', '╯']

def IsRule (line : List Char) : Prop := ∀ c ∈ line, c ∈ ruleChars

/-- **A table of texts**: the headings between two rules, and the rows with a rule under them. -/
inductive IsTable (headings : List String) (rows : List (List String)) : String → Prop where
  | mk {widths : List Nat} {top middle bottom : List Char} {head : List (List Char)}
    {body : List (List (List Char))} (htop : IsRule top) (hhead : IsRow widths headings head)
    (hmiddle : IsRule middle) (hbody : List.Forall₂ (IsRow widths) rows body)
    (hbottom : IsRule bottom) :
    IsTable headings rows (String.ofList
      (List.intercalate ['\n'] (top :: head ++ middle :: body.flatten ++ [bottom])))

/-! ### Lines -/

theorem join_eq_intercalate (mark : Char) (pieces : List (List Char)) :
    Pieces.join mark pieces = List.intercalate [mark] pieces := by
  induction pieces with
  | nil => rfl
  | cons piece rest ih =>
    cases rest with
    | nil => simp [Pieces.join]
    | cons next rest =>
      rw [Pieces.join, ih, List.intercalate_cons_cons, List.append_assoc]
      · rfl
      · exact List.cons_ne_nil _ _

theorem not_mem_of_mem_ofText {mark : Char} {cs piece : List Char}
    (h : piece ∈ Pieces.ofText mark cs) : mark ∉ piece := by
  induction cs generalizing piece with
  | nil =>
    obtain rfl := List.mem_singleton.1 h
    exact List.not_mem_nil
  | cons c cs ih =>
    rw [Pieces.ofText] at h
    split at h
    · rcases List.mem_cons.1 h with rfl | h
      · exact List.not_mem_nil
      · exact ih h
    · next hne =>
      split at h
      · next heq => exact absurd heq (Pieces.ofText_ne_nil mark cs)
      · next first rest heq =>
        rcases List.mem_cons.1 h with rfl | h
        · -- The character stands in front of the first piece of the rest.
          intro hmem
          rcases List.mem_cons.1 hmem with hmark | hmem
          · exact hne hmark.symm
          · exact ih (heq ▸ List.mem_cons_self) hmem
        · exact ih (heq ▸ List.mem_cons_of_mem _ h)

theorem areLines_ofText (text : String) : AreLines text (Cell.ofText text) := by
  refine ⟨Pieces.ofText_ne_nil _ _, ?_, fun _ => not_mem_of_mem_ofText⟩
  rw [← join_eq_intercalate]
  exact Pieces.join_ofText _ _

theorem mem_join {mark c : Char} {pieces : List (List Char)} (h : c ∈ Pieces.join mark pieces) :
    c = mark ∨ ∃ piece ∈ pieces, c ∈ piece := by
  induction pieces with
  | nil => exact absurd h List.not_mem_nil
  | cons piece rest ih =>
    cases rest with
    | nil => exact .inr ⟨piece, List.mem_cons_self, h⟩
    | cons next rest =>
      rcases List.mem_append.1 h with h | h
      · exact .inr ⟨piece, List.mem_cons_self, h⟩
      rcases List.mem_cons.1 h with h | h
      · exact .inl h
      · exact (ih h).imp_right fun ⟨other, hother, hc⟩ =>
          ⟨other, List.mem_cons_of_mem _ hother, hc⟩

/-! ### Widths -/

/-- The cells of a row are no wider than their columns. -/
def Fits (row : List Cell) (widths : List Nat) : Prop :=
  List.Forall₂ (fun cell width => Cell.width cell ≤ width) row widths

theorem forall₂_le_widen {a b : List Nat} (h : a.length = b.length) :
    List.Forall₂ (· ≤ ·) a (widen a b) ∧ List.Forall₂ (· ≤ ·) b (widen a b) := by
  induction a generalizing b with
  | nil =>
    obtain rfl := List.eq_nil_of_length_eq_zero h.symm
    exact ⟨.nil, .nil⟩
  | cons m a ih =>
    cases b with
    | nil => exact absurd h (by simp)
    | cons n b =>
      obtain ⟨ha, hb⟩ := ih (by simpa using h)
      exact ⟨.cons (Nat.le_max_left m n) ha, .cons (Nat.le_max_right m n) hb⟩

theorem forall₂_le_trans {a b c : List Nat} (hab : List.Forall₂ (· ≤ ·) a b)
    (hbc : List.Forall₂ (· ≤ ·) b c) : List.Forall₂ (· ≤ ·) a c := by
  induction hab generalizing c with
  | nil => exact hbc
  | cons hab _ ih =>
    cases hbc with
    | cons hbc hrest => exact .cons (Nat.le_trans hab hbc) (ih hrest)

/-- Widths are carried along, and grow. -/
theorem forall₂_le_foldl_widen {rows : List (List Nat)} (first : List Nat)
    (h : ∀ row ∈ rows, row.length = first.length) :
    ∀ row ∈ first :: rows, List.Forall₂ (· ≤ ·) row (rows.foldl widen first) := by
  induction rows generalizing first with
  | nil =>
    intro row hrow
    obtain rfl := List.mem_singleton.1 hrow
    exact List.forall₂_refl _
  | cons next rows ih =>
    obtain ⟨hnext, hrows⟩ := List.forall_mem_cons.1 h
    obtain ⟨hfirst, hsecond⟩ := forall₂_le_widen hnext.symm
    have hlength : (widen first next).length = first.length := hfirst.length_eq.symm
    have hall := ih (widen first next) fun row hrow => (hrows row hrow).trans hlength.symm
    have hwide := hall _ List.mem_cons_self
    intro row hrow
    rcases List.mem_cons.1 hrow with rfl | hrow
    · exact forall₂_le_trans hfirst hwide
    · rcases List.mem_cons.1 hrow with rfl | hrow
      · exact forall₂_le_trans hsecond hwide
      · exact hall row (List.mem_cons_of_mem _ hrow)

theorem fits_widths (first : List Cell) {rows : List (List Cell)}
    (h : ∀ row ∈ rows, row.length = first.length) :
    ∀ row ∈ first :: rows, Fits row (widths (first :: rows)) := by
  intro row hrow
  have hlengths : ∀ other ∈ rows.map (·.map Cell.width),
      other.length = (first.map Cell.width).length := by
    intro other hother
    obtain ⟨own, hown, rfl⟩ := List.mem_map.1 hother
    rw [List.length_map, List.length_map, h own hown]
  have hwide := forall₂_le_foldl_widen (first.map Cell.width) hlengths (row.map Cell.width)
    (List.mem_map.2 ⟨row, hrow, rfl⟩)
  exact List.forall₂_map_left_iff.1 hwide

/-! ### Rows -/

theorem le_foldl_max {numbers : List Nat} {start height : Nat} :
    numbers.foldl max start ≤ height ↔ start ≤ height ∧ ∀ n ∈ numbers, n ≤ height := by
  induction numbers generalizing start with
  | nil => simp
  | cons n numbers ih =>
    rw [List.foldl_cons, ih, List.forall_mem_cons, Nat.max_le, and_assoc]

theorem width_getD_le (cell : Cell) (index : Nat) :
    Width.ofText (cell.getD index []) ≤ cell.width := by
  have hall := (le_foldl_max.1 (Nat.le_refl cell.width)).2
  rw [List.getD_eq_getElem?_getD]
  cases hline : cell[index]? with
  | none => exact Nat.zero_le _
  | some line => exact hall _ (List.mem_map.2 ⟨line, List.mem_of_getElem? hline, rfl⟩)

theorem barred_line {row : List Cell} {widths : List Nat} (h : Fits row widths) (index : Nat) :
    Barred widths (row.map fun cell => cell.getD index []) (line widths row index) := by
  induction h with
  | nil => exact .bar
  | @cons cell width row widths hcell _ ih =>
    have hwidth := Nat.le_trans (width_getD_le cell index) hcell
    have hbarred := Barred.cell
      (show Width.ofText (cell.getD index []) + (width - Width.ofText (cell.getD index [])) = width
        by omega) ih
    rw [line, List.zip_cons_cons, List.flatMap_cons, List.map_cons]
    simpa only [line, padded, List.cons_append, List.append_assoc, List.nil_append] using hbarred

theorem isRow_rowLines {texts : List String} {widths : List Nat}
    (h : Fits (texts.map Cell.ofText) widths) :
    IsRow widths texts (rowLines widths (texts.map Cell.ofText)) := by
  have hcells : List.Forall₂ AreLines texts (texts.map Cell.ofText) :=
    List.forall₂_map_right_iff.2 (List.forall₂_same.2 fun text _ => areLines_ofText text)
  refine .mk hcells (fun index row hrow => ?_) fun height => ?_
  · rw [rowLines, List.getElem?_map] at hrow
    obtain ⟨place, hplace, rfl⟩ := Option.map_eq_some_iff.1 hrow
    obtain ⟨hlt, hget⟩ := List.getElem?_eq_some_iff.1 hplace
    rw [List.getElem_range] at hget
    subst hget
    exact barred_line h index
  · rw [rowLines, List.length_map, List.length_range, le_foldl_max, List.forall_mem_map]
    simp

theorem isRule_rule {left middle right : Char} (hleft : left ∈ ruleChars)
    (hmiddle : middle ∈ ruleChars) (hright : right ∈ ruleChars) (widths : List Nat) :
    IsRule (rule left middle right widths) := by
  intro c hc
  rcases List.mem_cons.1 hc with rfl | hc
  · exact hleft
  rcases List.mem_append.1 hc with hc | hc
  · rcases mem_join hc with rfl | ⟨piece, hpiece, hc⟩
    · exact hmiddle
    · obtain ⟨width, -, rfl⟩ := List.mem_map.1 hpiece
      rw [List.eq_of_mem_replicate hc]
      decide
  · rwa [List.mem_singleton.1 hc]

/-- **What is drawn is a table** of the texts. -/
theorem isTable_draw (headings : List String) {rows : List (List String)}
    (h : ∀ row ∈ rows, row.length = headings.length) :
    IsTable headings rows (draw headings rows) := by
  have hlengths : ∀ row ∈ rows.map (·.map Cell.ofText),
      row.length = (headings.map Cell.ofText).length := by
    intro row hrow
    obtain ⟨texts, htexts, rfl⟩ := List.mem_map.1 hrow
    rw [List.length_map, List.length_map, h texts htexts]
  have hfits := fits_widths (headings.map Cell.ofText) hlengths
  obtain ⟨hheadings, hrows⟩ := List.forall_mem_cons.1 hfits
  have hbody : List.Forall₂ (IsRow _) rows
      (rows.map fun row => rowLines _ (row.map Cell.ofText)) :=
    List.forall₂_map_right_iff.2 (List.forall₂_same.2 fun row hrow =>
      isRow_rowLines (hrows _ (List.mem_map.2 ⟨row, hrow, rfl⟩)))
  rw [draw, join_eq_intercalate, lines, List.flatMap_map, List.flatMap_def]
  exact .mk (isRule_rule (by decide) (by decide) (by decide) _) (isRow_rowLines hheadings)
    (isRule_rule (by decide) (by decide) (by decide) _) hbody
    (isRule_rule (by decide) (by decide) (by decide) _)

end DeviceScope.Grid
