import BlockMaze.Proofs.Program.Views
import BlockMaze.View.Window

/-! The program listing on its panel: which rows are drawn, and which of them a click finds. Both are counted
in bands of a line's height from the same edge. But a click is only held to the panel and not to the rows drawn
in it, so that beside them it finds rows that are scrolled out. -/
namespace BlockMaze
open Text

/-- The texts that drawing commands write, each with its upper left corner. -/
def Paint.written (paints : List Paint) : List (String × Point) :=
  paints.filterMap fun
    | .text words _ corner => some (words, corner)
    | _ => none

theorem wrap_of_pixel {value : Int} (low : 0 ≤ value) (high : value < -leastPixel) : wrap value = value :=
  wrap_of_range (Int.le_trans (by decide) low) high

namespace Rect
variable {rect : Rect} {point : Point}

/-- All of a rectangle is on a surface, whose pixels are counted from zero. -/
structure OnSurface (rect : Rect) : Prop where
  left : 0 ≤ rect.x
  right : rect.x + rect.width < -leastPixel
  top : 0 ≤ rect.y
  bottom : rect.y + rect.height < -leastPixel

theorem OnSurface.contains (surface : rect.OnSurface) (left : rect.x ≤ point.x)
    (right : point.x < rect.x + rect.width) (top : rect.y ≤ point.y)
    (bottom : point.y < rect.y + rect.height) : rect.contains point = true := by
  obtain ⟨from_left, to_right, from_top, to_bottom⟩ := surface
  have x : wrap point.x = point.x := wrap_of_pixel (by omega) (by omega)
  have y : wrap point.y = point.y := wrap_of_pixel (by omega) (by omega)
  have end_x : wrap (rect.x + rect.width) = rect.x + rect.width := wrap_of_pixel (by omega) to_right
  have end_y : wrap (rect.y + rect.height) = rect.y + rect.height := wrap_of_pixel (by omega) to_bottom
  simp [Rect.contains, x, y, end_x, end_y, left, right, top, bottom]

end Rect

namespace Listing
variable {font : Font} {listing : Listing} {point : Point} {block : Block} {place y : Int}

/-- Where the band of a place begins. Places count from the first row drawn, so that rows scrolled out above
it are at negative ones. -/
def edge (font : Font) (listing : Listing) (place : Int) : Int := listing.inner.y + place * font.height

/-- A row that is drawn, with the upper edge of its band. -/
structure Line where
  top : Int
  depth : Nat
  block : Block

def Line.text (line : Line) : String := indentation "    " line.depth ++ line.block.content.label

def lines (font : Font) (listing : Listing) : List Line :=
  (listing.shownRows font).zipIdx.map fun ((depth, block), place) => ⟨listing.edge font place, depth, block⟩

/-- A block's row is drawn in the band that a point is in. -/
def ShownAt (font : Font) (listing : Listing) (point : Point) (block : Block) : Prop :=
  ∃ line ∈ listing.lines font, line.block = block ∧ line.top ≤ point.y ∧ point.y < line.top + font.height

/-- What is found at a point is what is drawn there, as far as it is on the panel. -/
def SelectsShown (font : Font) (listing : Listing) (point : Point) : Prop :=
  ∀ block, listing.rowAt font point = some block ↔
    listing.rect.contains point = true ∧ listing.ShownAt font point block

/-- A point of the panel above the rows drawn or below them, where the bands of rows that are scrolled out would
be. -/
structure OverHidden (font : Font) (listing : Listing) (point : Point) : Prop where
  inside : listing.rect.contains point = true
  beside : (listing.edge font (-listing.scroll) ≤ point.y ∧ point.y < listing.edge font 0) ∨
    (listing.edge font (listing.visible font) ≤ point.y ∧
      point.y < listing.edge font (listing.rows.length - listing.scroll))

structure InRange (font : Font) (listing : Listing) : Prop where
  low : 0 ≤ listing.scroll
  high : listing.scroll ≤ max 0 (listing.rows.length - listing.visible font)

theorem inRange_draw (font : Font) (program : Program) (listing : Listing) :
    (listing.draw font program).1.InRange font :=
  have bounds := restrict_bounds (Int.le_max_left 0 _) listing.scroll
  ⟨bounds.1, bounds.2⟩

theorem visible_pos (font : Font) (listing : Listing) : 0 < listing.visible font :=
  Int.lt_of_lt_of_le Int.one_pos (Int.le_max_left 1 _)

section bands

def placeAt (font : Font) (listing : Listing) (y : Int) : Int := (y - listing.inner.y) / font.height

theorem edge_le_iff (tall : 0 < font.height) :
    listing.edge font place ≤ y ↔ place ≤ listing.placeAt font y := by
  rw [placeAt, Int.le_ediv_iff_mul_le tall, edge]
  omega

theorem lt_edge_iff (tall : 0 < font.height) :
    y < listing.edge font place ↔ listing.placeAt font y < place := by
  rw [← Int.not_le, edge_le_iff tall, Int.not_le]

theorem edge_succ (font : Font) (listing : Listing) (place : Int) :
    listing.edge font place + font.height = listing.edge font (place + 1) := by
  rw [edge, edge, Int.add_mul, Int.one_mul, Int.add_assoc]

theorem edge_lt_edge (listing : Listing) {later : Int} (tall : 0 < font.height) (before : place < later) :
    listing.edge font place < listing.edge font later :=
  Int.add_lt_add_left (Int.mul_lt_mul_of_pos_right before tall) _

theorem rowAt_eq_some_iff (tall : 0 < font.height) : listing.rowAt font point = some block ↔
    listing.rect.contains point = true ∧ ∃ (index : Nat) (depth : Nat), listing.rows[index]? = some (depth, block) ∧
      (index : Int) = listing.scroll + listing.placeAt font point.y := by
  unfold rowAt
  rw [Int.fdiv_eq_ediv_of_nonneg _ (Int.le_of_lt tall), ← placeAt]
  by_cases inside : listing.rect.contains point = true
  · simp only [inside, if_true, true_and]
    split
    · rename_i counted
      rw [Option.map_eq_some_iff]
      constructor
      · rintro ⟨⟨depth, block⟩, row, rfl⟩
        exact ⟨_, depth, row, Int.toNat_of_nonneg counted⟩
      · rintro ⟨index, depth, row, here⟩
        exact ⟨(depth, block), by rwa [← here, Int.toNat_natCast], rfl⟩
    · rename_i above
      exact iff_of_false nofun fun ⟨index, depth, row, here⟩ => above (here ▸ Int.natCast_nonneg index)
  · simp [inside]

theorem mem_lines_iff (ranged : listing.InRange font) {line : Line} : line ∈ listing.lines font ↔
    ∃ index : Nat, listing.rows[index]? = some (line.depth, line.block) ∧ listing.scroll ≤ index ∧
      index < listing.scroll + listing.visible font ∧ line.top = listing.edge font (index - listing.scroll) := by
  obtain ⟨low, -⟩ := ranged
  have shown (place : Nat) : (listing.shownRows font)[place]? =
      if place < (listing.visible font).toNat then listing.rows[listing.scroll.toNat + place]? else none := by
    rw [shownRows, List.getElem?_take, List.getElem?_drop]
  rw [lines, List.mem_map]
  constructor
  · rintro ⟨⟨⟨depth, block⟩, place⟩, member, rfl⟩
    rw [List.mem_zipIdx_iff_getElem?, shown] at member
    split at member
    · refine ⟨listing.scroll.toNat + place, member, by omega, by omega, ?_⟩
      exact congrArg (listing.edge font) (by omega)
    · cases member
  · rintro ⟨index, row, from_scroll, within, top⟩
    refine ⟨((line.depth, line.block), index - listing.scroll.toNat), ?_, ?_⟩
    · rw [List.mem_zipIdx_iff_getElem?, shown, if_pos (by omega), Nat.add_sub_cancel' (by omega)]
      exact row
    · have place : ((index - listing.scroll.toNat : Nat) : Int) = index - listing.scroll := by omega
      exact congrArg (Line.mk · line.depth line.block) (by rw [place, ← top])

theorem shownAt_iff (tall : 0 < font.height) (ranged : listing.InRange font) :
    listing.ShownAt font point block ↔ ∃ (index : Nat) (depth : Nat), listing.rows[index]? = some (depth, block) ∧
      (index : Int) = listing.scroll + listing.placeAt font point.y ∧
      0 ≤ listing.placeAt font point.y ∧ listing.placeAt font point.y < listing.visible font := by
  constructor
  · rintro ⟨line, member, rfl, top, bottom⟩
    obtain ⟨index, row, from_scroll, within, edge⟩ := (mem_lines_iff ranged).mp member
    rw [edge, edge_succ, lt_edge_iff tall] at bottom
    rw [edge, edge_le_iff tall] at top
    exact ⟨index, line.depth, row, by omega, by omega, by omega⟩
  · rintro ⟨index, depth, row, here, first, last⟩
    refine ⟨⟨listing.edge font (index - listing.scroll), depth, block⟩,
      (mem_lines_iff ranged).mpr ⟨index, row, by omega, by omega, rfl⟩, rfl, ?_, ?_⟩
    · exact (edge_le_iff tall).mpr (by omega)
    · rw [edge_succ]
      exact (lt_edge_iff tall).mpr (by omega)

theorem overHidden_iff (tall : 0 < font.height) : listing.OverHidden font point ↔
    listing.rect.contains point = true ∧
      ((-listing.scroll ≤ listing.placeAt font point.y ∧ listing.placeAt font point.y < 0) ∨
        (listing.visible font ≤ listing.placeAt font point.y ∧
          listing.placeAt font point.y < listing.rows.length - listing.scroll)) := by
  rw [← edge_le_iff tall, ← edge_le_iff tall, ← lt_edge_iff tall, ← lt_edge_iff tall]
  exact ⟨fun ⟨inside, beside⟩ => ⟨inside, beside⟩, fun ⟨inside, beside⟩ => ⟨inside, beside⟩⟩

end bands

theorem OverHidden.exists_row (hidden : listing.OverHidden font point) (tall : 0 < font.height)
    (ranged : listing.InRange font) : ∃ (index : Nat) (depth : Nat) (block : Block),
      listing.rows[index]? = some (depth, block) ∧ listing.rowAt font point = some block ∧
      ¬ (listing.scroll ≤ index ∧ index < listing.scroll + listing.visible font) := by
  obtain ⟨inside, beside⟩ := (overHidden_iff tall).mp hidden
  obtain ⟨low, high⟩ := ranged
  have some_visible := listing.visible_pos font
  obtain ⟨index, here⟩ := Int.eq_ofNat_of_zero_le
    (show 0 ≤ listing.scroll + listing.placeAt font point.y by omega)
  -- above, the scroll is no more than the rows; below, the band is said to end with them
  have counted : index < listing.rows.length := by omega
  rcases row : listing.rows[index] with ⟨depth, block⟩
  have row : listing.rows[index]? = some (depth, block) := row ▸ List.getElem?_eq_getElem counted
  exact ⟨index, depth, block, row, (rowAt_eq_some_iff tall).mpr ⟨inside, index, depth, row, here.symm⟩, by omega⟩

theorem selectsShown_iff (tall : 0 < font.height) (ranged : listing.InRange font) (point : Point) :
    listing.SelectsShown font point ↔ ¬ listing.OverHidden font point := by
  constructor
  · intro selects hidden
    obtain ⟨_, _, block, _, found, _⟩ := hidden.exists_row tall ranged
    obtain ⟨_, shown⟩ := (selects block).mp found
    obtain ⟨_, _, _, _, first, last⟩ := (shownAt_iff tall ranged).mp shown
    obtain ⟨_, beside⟩ := (overHidden_iff tall).mp hidden
    omega
  · intro clear block
    rw [rowAt_eq_some_iff tall, shownAt_iff tall ranged]
    refine and_congr_right fun inside => ⟨?_, ?_⟩
    · rintro ⟨index, depth, row, here⟩
      obtain ⟨counted, _⟩ := List.getElem?_eq_some_iff.mp row
      have drawn : 0 ≤ listing.placeAt font point.y ∧
          listing.placeAt font point.y < listing.visible font := by
        by_contra outside
        exact clear ((overHidden_iff tall).mpr ⟨inside, by omega⟩)
      exact ⟨index, depth, row, here, drawn⟩
    · rintro ⟨index, depth, row, here, _⟩
      exact ⟨index, depth, row, here⟩

theorem exists_overHidden (tall : 0 < font.height) (ranged : listing.InRange font)
    (surface : listing.rect.OnSurface) (wide : 0 < listing.rect.width)
    (room : font.height + 14 ≤ listing.rect.height) (more : listing.visible font < listing.rows.length) :
    ∃ point, listing.OverHidden font point := by
  obtain ⟨low, -⟩ := ranged
  have from_top := surface.top
  have to_bottom := surface.bottom
  have half : (-14 : Int).tdiv 2 = -7 := rfl
  have top : listing.inner.y = listing.rect.y - (-14 : Int).tdiv 2 :=
    wrap_of_pixel (by omega) (by omega)
  have height : listing.inner.height = listing.rect.height + -14 :=
    wrap_of_pixel (by omega) (by omega)
  have first : listing.edge font 0 = listing.inner.y := by rw [edge, Int.zero_mul, Int.add_zero]
  have inside {y : Int} (below : listing.rect.y ≤ y) (above : y < listing.rect.y + listing.rect.height) :
      listing.rect.contains ⟨listing.rect.x, y⟩ = true :=
    surface.contains (Int.le_refl _) (Int.lt_add_of_pos_right _ wide) below above
  by_cases start : listing.scroll = 0
  -- nothing is hidden above, and the pixel is the first one below the rows drawn
  · have fits : listing.visible font * font.height ≤ listing.inner.height := by
      have some_line : 1 ≤ listing.inner.height / font.height :=
        (Int.le_ediv_iff_mul_le tall).mpr (by omega)
      rw [visible, Font.linesIn, Int.fdiv_eq_ediv_of_nonneg _ (Int.le_of_lt tall), Int.max_eq_right some_line]
      exact Int.ediv_mul_le _ (Int.ne_of_gt tall)
    have under : listing.edge font (listing.visible font) ≤ listing.inner.y + listing.inner.height :=
      Int.add_le_add_left fits _
    have after := listing.edge_lt_edge tall (listing.visible_pos font)
    have last := listing.edge_lt_edge tall more
    rw [← Int.sub_zero (listing.rows.length : Int), ← start] at last
    exact ⟨⟨listing.rect.x, listing.edge font (listing.visible font)⟩,
      inside (by omega) (by omega), .inr ⟨Int.le_refl _, last⟩⟩
  -- the pixel is the last one above the rows drawn
  · have above := listing.edge_lt_edge tall (show -listing.scroll < 0 by omega)
    exact ⟨⟨listing.rect.x, listing.edge font 0 - 1⟩, inside (by omega) (by omega),
      .inl ⟨Int.le_sub_one_of_lt above, Int.sub_one_lt_of_le (Int.le_refl _)⟩⟩

theorem not_overHidden_of_all (tall : 0 < font.height) (ranged : listing.InRange font)
    (all : listing.rows.length ≤ listing.visible font) (point : Point) : ¬ listing.OverHidden font point := by
  intro hidden
  obtain ⟨-, beside⟩ := (overHidden_iff tall).mp hidden
  obtain ⟨low, high⟩ := ranged
  omega

section drawing

theorem written_rowPaint (font : Font) (listing : Listing) (place depth : Nat) (block : Block) :
    Paint.written (listing.rowPaint font place depth block) =
      [(indentation "    " depth ++ block.content.label, ⟨listing.inner.x + 4, listing.edge font place⟩)] := by
  unfold rowPaint
  dsimp only
  split <;> rfl

theorem written_paint (font : Font) (listing : Listing) : Paint.written (listing.paint font) =
    (if listing.rows.isEmpty then [("Add blocks from the palette...", listing.inner.corner)] else []) ++
      (listing.lines font).map fun line => (line.text, ⟨listing.inner.x + 4, line.top⟩) := by
  have rows : Paint.written ((listing.shownRows font).zipIdx.flatMap fun ((depth, block), place) =>
      listing.rowPaint font place depth block) =
      (listing.lines font).map fun line => (line.text, ⟨listing.inner.x + 4, line.top⟩) := by
    rw [Paint.written, List.filterMap_flatMap, lines, List.map_map, List.map_eq_flatMap]
    exact List.flatMap_congr fun ⟨⟨depth, block⟩, place⟩ _ => listing.written_rowPaint font place depth block
  have hint : Paint.written (if listing.rows.isEmpty then
      [.text "Add blocks from the palette..." .muted listing.inner.corner] else []) =
      if listing.rows.isEmpty then [("Add blocks from the palette...", listing.inner.corner)] else [] := by
    split <;> rfl
  rw [paint, Paint.written, List.filterMap_append, List.filterMap_append, List.filterMap_append]
  change _ ++ Paint.written _ ++ Paint.written _ ++ [] = _
  rw [rows, hint, List.append_nil]
  rfl

end drawing

theorem clickOn_pixel (font : Font) (listing : Listing) {x y : Int} (fits_x : (Measure.whole x).fits = true)
    (fits_y : (Measure.whole y).fits = true) :
    listing.clickOn font ⟨.whole x, .whole y⟩ = .ok (listing.click font ⟨x, y⟩) := by
  have pixel {value : Int} (fits : (Measure.whole value).fits = true) :
      Measure.pixel? (.whole value) = some (wrap value) := by
    simp [Measure.pixel?, Measure.ofDatum?, Option.filter, fits, Measure.pixel]
  have same : listing.rowAt font ⟨wrap x, y⟩ = listing.rowAt font ⟨x, y⟩ := by
    have inside : listing.rect.contains ⟨wrap x, y⟩ = listing.rect.contains ⟨x, y⟩ := by
      have again : wrap (wrap x) = wrap x := Int.bmod_bmod
      simp only [Rect.contains, again]
    rw [rowAt, rowAt, inside]
  simp only [clickOn, rowFor, Position.point, pixel fits_x, pixel fits_y, Measure.ofDatum?, bind, Except.bind, pure,
    Except.pure, same]
  rfl

theorem OverHidden.exists_hidden_block (hidden : listing.OverHidden font point)
    (tall : 0 < font.height) (ranged : listing.InRange font) (distinct : (listing.rows.map (·.2.id)).Nodup) :
    ∃ block, listing.rowAt font point = some block ∧ ∀ line ∈ listing.lines font, line.block.id ≠ block.id := by
  obtain ⟨index, depth, block, row, found, outside⟩ := hidden.exists_row tall ranged
  refine ⟨block, found, fun line member same => outside ?_⟩
  obtain ⟨other, drawn, from_scroll, within, _⟩ := (mem_lines_iff ranged).mp member
  have numbered (place : Nat) : (listing.rows.map (·.2.id))[place]? = listing.rows[place]?.map (·.2.id) :=
    List.getElem?_map
  have once : index = other := by
    refine (List.getElem?_inj ?_ distinct).mp ?_
    · rw [List.length_map]
      exact (List.getElem?_eq_some_iff.mp row).1
    · rw [numbered, numbered, row, drawn]
      exact congrArg some same.symm
  exact once ▸ ⟨from_scroll, within⟩

/-- Whatever program a listing was drawn of, a pixel finds what is drawn there: the block in whose band it is,
or nothing. Only above the rows drawn and below them, as far as the panel goes, it finds blocks whose rows are
not drawn. No pixel does if all rows are drawn; else some pixel does on every panel with room for a row. -/
theorem selects_shown_iff_not_hidden (font : Font) (tall : 0 < font.height) (edits : List Edit)
    (listing : Listing) :
    let program := (Program.editAll {} edits).2
    let drawn := (listing.draw font program).1
    (Paint.written (listing.draw font program).2 =
      (if drawn.rows.isEmpty then [("Add blocks from the palette...", drawn.inner.corner)] else []) ++
        (drawn.lines font).map fun line => (line.text, ⟨drawn.inner.x + 4, line.top⟩)) ∧
    (∀ x y, (Measure.whole x).fits = true → (Measure.whole y).fits = true →
      drawn.clickOn font ⟨.whole x, .whole y⟩ = .ok (drawn.select (drawn.rowAt font ⟨x, y⟩))) ∧
    (∀ point, drawn.SelectsShown font point ↔ ¬ drawn.OverHidden font point) ∧
    (∀ point, drawn.OverHidden font point → ∃ block, drawn.rowAt font point = some block ∧
      ∀ line ∈ drawn.lines font, line.block.id ≠ block.id) ∧
    (program.forest.outline.length ≤ drawn.visible font → ∀ point, ¬ drawn.OverHidden font point) ∧
    (drawn.visible font < program.forest.outline.length → drawn.rect.OnSurface → 0 < drawn.rect.width →
      font.height + 14 ≤ drawn.rect.height → ∃ point, drawn.OverHidden font point) := by
  intro program drawn
  have ranged : drawn.InRange font := inRange_draw font program listing
  have kept : program.Kept := Program.kept_new.editAll edits
  refine ⟨drawn.written_paint font, fun x y fits_x fits_y => drawn.clickOn_pixel font fits_x fits_y,
    selectsShown_iff tall ranged, fun point hidden => ?_, not_overHidden_of_all tall ranged, ?_⟩
  · exact hidden.exists_hidden_block tall ranged kept.outline_distinct
  · exact fun more surface wide room => exists_overHidden tall ranged surface wide room more

/-- Fourteen commands in the panel of the window, which shows thirteen rows, after the wheel was turned by one
row. -/
def longListing : Listing :=
  let program := (Program.editAll {} (List.replicate 14 (.insert (.text "forward") none none))).2
  (({ rect := Window.listingRect, scroll := 1 } : Listing).draw {} program).1

/-- The second block is found in the first band, nothing at the lower edge of the panel, and above the first
band a block whose row is not drawn. -/
theorem selects_shown_iff_not_hidden_window :
    0 < ({} : Font).height ∧ longListing.SelectsShown {} ⟨20, 203⟩ ∧ longListing.SelectsShown {} ⟨20, 420⟩ ∧
      longListing.clickOn {} ⟨.whole 20, .whole 190⟩ =
        .ok (longListing.select (longListing.rowAt {} ⟨20, 190⟩)) ∧
      (∃ block, longListing.rowAt {} ⟨20, 190⟩ = some block ∧
        ∀ line ∈ longListing.lines {}, line.block.id ≠ block.id) ∧
      ∃ point, longListing.OverHidden {} point := by
  obtain ⟨-, clicks, selects, finds, -, some_pixel⟩ := selects_shown_iff_not_hidden {} (by decide)
    (List.replicate 14 (.insert (.text "forward") none none)) { rect := Window.listingRect, scroll := 1 }
  have above : longListing.OverHidden {} ⟨20, 190⟩ := ⟨by decide +kernel, by decide +kernel⟩
  refine ⟨by decide, (selects ⟨20, 203⟩).mpr fun hidden => ?_, (selects ⟨20, 420⟩).mpr fun hidden => ?_,
    clicks 20 190 (by decide) (by decide), finds ⟨20, 190⟩ above,
    some_pixel (by decide +kernel) ⟨by decide, by decide, by decide, by decide⟩ (by decide) (by decide)⟩
  · exact absurd hidden.beside (by decide +kernel)
  · exact absurd hidden.beside (by decide +kernel)

/-- Three pixels above the first band the first block is found and selected, whose row is scrolled out. -/
theorem scrolled_out_block_selected :
    longListing.rowAt {} ⟨20, 190⟩ = some ⟨1, .command .forward⟩ ∧
      (longListing.click {} ⟨20, 190⟩).selected = some 1 ∧
      (∀ line ∈ longListing.lines {}, line.block.id ≠ 1) ∧ ¬ longListing.SelectsShown {} ⟨20, 190⟩ := by
  have found : longListing.rowAt {} ⟨20, 190⟩ = some ⟨1, .command .forward⟩ := by decide +kernel
  have unseen : ∀ line ∈ longListing.lines {}, line.block.id ≠ 1 := by decide +kernel
  refine ⟨found, by decide +kernel, unseen, fun selects => ?_⟩
  obtain ⟨-, line, member, same, -⟩ := (selects _).mp found
  exact unseen line member (congrArg Block.id same)

end Listing
end BlockMaze
