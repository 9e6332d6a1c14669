import WorkerFleet.Json
import WorkerFleet.Proofs.JsonText
import WorkerFleet.Proofs.Records

/-!
# Printed documents read back

A document is printed as a text that reads as that document, on one line
(`readsDocuments_oneLine`) as well as over several (`readsDocuments_severalLines`). What is asked
of the document is that the text of each real number in it is read as that number: the reader
rounds more than once where a number has many digits, so this does not hold of all numbers.
-/

namespace WorkerFleet

namespace Json

/-- The text of the number is read as the number. -/
def ReadsBack (x : Float) : Prop := read? (realText x) = some (.real x)

theorem readsBack_of_next? {x : Float}
    (h : next? ((realText x).toList.dropWhile isSpace) = some (.scalar (.real x), [])) :
    ReadsBack x := by
  rw [ReadsBack, read?_eq_readOn?, readOn?_of_next? h]
  exact readOn?_nil _

theorem compactItems_eq_map (real : Float → String) (items : List (Document Float)) :
    compactItems real items = items.map (compact real) := by
  induction items with
  | nil => rw [compactItems, List.map_nil]
  | cons d rest ih => rw [compactItems, ih, List.map_cons]

theorem compactMembers_eq_map (real : Float → String) (members : List (String × Document Float)) :
    compactMembers real members = members.map fun m => quote m.1 ++ ":" ++ compact real m.2 := by
  induction members with
  | nil => rw [compactMembers, List.map_nil]
  | cons m rest ih => rw [compactMembers, ih, List.map_cons]

theorem prettyItems_eq_map (depth : Nat) (items : List (Document Float)) :
    prettyItems depth items = items.map (pretty depth) := by
  induction items with
  | nil => rw [prettyItems, List.map_nil]
  | cons d rest ih => rw [prettyItems, ih, List.map_cons]

theorem prettyMembers_eq_map (depth : Nat) (members : List (String × Document Float)) :
    prettyMembers depth members = members.map fun m => quote m.1 ++ ": " ++ pretty depth m.2 := by
  induction members with
  | nil => rw [prettyMembers, List.map_nil]
  | cons m rest ih => rw [prettyMembers, ih, List.map_cons]

theorem toList_compact_array (items : List (Document Float)) :
    (compact realText (.array items)).toList =
      enclose '[' ']' [] [] (items.map fun d => (compact realText d).toList) := by
  simp [compact, compactItems_eq_map, enclose, String.toList_intercalate, Function.comp_def]

theorem toList_compact_object (members : List (String × Document Float)) :
    (compact realText (.object members)).toList =
      enclose '\x7b' '\x7d' [] []
        (members.map fun m =>
          (quote m.1).toList ++ ':' :: ([] ++ (compact realText m.2).toList)) := by
  simp [compact, compactMembers_eq_map, enclose, String.toList_intercalate, Function.comp_def]

/-- A line break and the spaces in front of a line at this depth. -/
def margin (depth : Nat) : List Char := '\n' :: List.replicate (2 * depth) ' '

theorem isSpace_of_mem_margin {depth : Nat} : ∀ c ∈ margin depth, isSpace c = true := by
  intro c hc
  rcases List.mem_cons.mp hc with rfl | hc
  · decide
  · obtain rfl := List.eq_of_mem_replicate hc
    decide

/-- Without lines there is nothing between the brackets. -/
theorem toList_block (opening closing : String) {o c : Char} (hopening : opening.toList = [o])
    (hclosing : closing.toList = [c]) (depth : Nat) (lines : List String) :
    ∃ ws ws', (∀ c ∈ ws, isSpace c = true) ∧ (∀ c ∈ ws', isSpace c = true) ∧
      (block opening closing depth lines).toList =
        enclose o c ws ws' (lines.map String.toList) := by
  cases lines with
  | nil =>
    refine ⟨[], [], List.forall_mem_nil _, List.forall_mem_nil _, ?_⟩
    simp [block, enclose, hopening, hclosing]
  | cons line lines =>
    refine ⟨margin (depth + 1), margin depth, isSpace_of_mem_margin, isSpace_of_mem_margin, ?_⟩
    simp [block, enclose, margin, String.toList_intercalate, hopening, hclosing]

theorem spells_compact {nesting : Nat} {d : Document Float} (h : d.Printable ReadsBack nesting) :
    Spells (compact realText d).toList d := by
  induction h with
  | null => exact spells_null
  | bool b => exact spells_bool b
  | natural h => exact spells_natural h
  | negative hpos h => exact spells_negative hpos h
  | real h => exact spells_real (K := Float) h
  | string s => exact spells_string s
  | array _ ih =>
    rw [toList_compact_array]
    apply spells_array (List.forall_mem_nil _) (List.forall_mem_nil _)
    rw [List.forall₂_map_left_iff, List.forall₂_same]
    exact ih
  | object _ _ ih =>
    rw [toList_compact_object]
    apply spells_object (List.forall_mem_nil _) (List.forall_mem_nil _)
    rw [List.forall₂_map_left_iff, List.forall₂_same]
    exact fun m hm => ⟨[], _, rfl, List.forall_mem_nil _, ih m hm⟩

theorem spells_pretty {nesting : Nat} {d : Document Float} (h : d.Printable ReadsBack nesting)
    (depth : Nat) :
    Spells (pretty depth d).toList d := by
  induction h generalizing depth with
  | null => exact spells_null
  | bool b => exact spells_bool b
  | natural h => exact spells_natural h
  | negative hpos h => exact spells_negative hpos h
  | real h => exact spells_real (K := Float) h
  | string s => exact spells_string s
  | @array _ items _ ih =>
    rw [pretty, prettyItems_eq_map]
    obtain ⟨ws, ws', hws, hws', htext⟩ := toList_block "[" "]" (o := '[') (c := ']') rfl rfl depth
      (items.map (pretty (depth + 1)))
    rw [htext, List.map_map]
    apply spells_array hws hws'
    rw [List.forall₂_map_left_iff, List.forall₂_same]
    exact fun d hd => ih d hd (depth + 1)
  | @object _ members _ _ ih =>
    rw [pretty, prettyMembers_eq_map]
    obtain ⟨ws, ws', hws, hws', htext⟩ :=
      toList_block "\x7b" "\x7d" (o := '\x7b') (c := '\x7d') rfl rfl depth
        (members.map fun m => quote m.1 ++ ": " ++ pretty (depth + 1) m.2)
    rw [htext, List.map_map]
    apply spells_object hws hws'
    rw [List.forall₂_map_left_iff, List.forall₂_same]
    intro m hm
    refine ⟨[' '], _, ?_, List.forall_mem_singleton.mpr rfl, ih m hm (depth + 1)⟩
    simp

theorem readsBack_oneLine : oneLine.ReadsBack = ReadsBack := by
  funext x
  show (read? (compact realText (.real x)) = some (.real x)) = _
  rw [compact, ReadsBack]

theorem readsBack_severalLines : severalLines.ReadsBack = ReadsBack := by
  funext x
  show (read? (write (.real x)) = some (.real x)) = _
  rw [write, pretty, ReadsBack]

theorem readsDocuments_oneLine : oneLine.ReadsDocuments := by
  intro d hd
  rw [readsBack_oneLine] at hd
  exact (spells_compact hd).read?

theorem readsDocuments_severalLines : severalLines.ReadsDocuments := by
  intro d hd
  rw [readsBack_severalLines] at hd
  exact (spells_pretty hd 0).read?

end Json

end WorkerFleet
