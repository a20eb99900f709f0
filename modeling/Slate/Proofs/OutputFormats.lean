import Slate.OutputFormats

/-! Which of the documented formats the client honours, for every text that a user may put into
them. -/

namespace Slate
open Library

/-- A value of the option as the documentation describes it. -/
inductive OutputForm where
  | json
  | noHeaders
  | jsonPointer (pointer : List Char)
  | jsonPointerFile (file : List Char)
  | customColumns (pairs : List (List Char × List Char))
  | customColumnsFile (file : List Char)

def pairsText : List (List Char × List Char) → List Char
  | [] => []
  | [pair] => pair.1 ++ ':' :: pair.2
  | pair :: pairs => pair.1 ++ ':' :: (pair.2 ++ ',' :: pairsText pairs)

def columnsOf (pairs : List (List Char × List Char)) : List OutputColumn :=
  pairs.map fun pair => { label := pair.1, attr := pair.2 }

def OutputForm.text : OutputForm → List Char
  | json => "json".toList
  | noHeaders => "no-headers".toList
  | jsonPointer pointer => "jsonpointer=".toList ++ pointer
  | jsonPointerFile file => "jsonpointer-file=".toList ++ file
  | customColumns pairs => "custom-columns=".toList ++ pairsText pairs
  | customColumnsFile file => "custom-columns-file=".toList ++ file

/-- A file of columns has two lines, with at least one word in them. -/
def OutputForm.Documented (files : OutputFiles) : OutputForm → Prop
  | jsonPointerFile file => file ≠ [] ∧ files file ≠ none
  | customColumns pairs => pairs ≠ [] ∧ ∀ pair ∈ pairs, (':' ∉ pair.1 ∧ ',' ∉ pair.1) ∧ ',' ∉ pair.2
  | customColumnsFile file => file ≠ [] ∧ ∃ first second, files file = some [first, second] ∧
      (lineTokens first ≠ [] ∨ lineTokens second ≠ [])
  | _ => True

variable (client : OutputClient) (library : OutputLibrary) (files : OutputFiles) (jdata original : Json)

/-- The table of the document in the given columns, whatever the order of its rows. -/
def Tabulates (columns : List OutputColumn) (headers : Bool) : Prop :=
  ∃ rows, jsonListToTable client library jdata columns headers = .ok (.table columns headers rows)

def PrintsTable (columns : List OutputColumn) (headers : Bool) (result : Except OutputFailure Formatted) : Prop :=
  ∃ rows, jsonListToTable client library jdata columns headers = .ok (.table columns headers rows) ∧
    result = .ok (.table columns headers rows)

def designated (pointer : List Char) : Option (List Char) :=
  ((library.resolve pointer original).bind Json.getString).map String.toList

def Fails (result : Except OutputFailure Formatted) : Prop := ∃ message, result = .error (.exception message)

def PrintsDesignated (pointer : List Char) (result : Except OutputFailure Formatted) : Prop :=
  match designated library original pointer with
  | some string => result = .ok (.text (string ++ ['\n']))
  | none => Fails result

/-- What each of the forms is documented to print. -/
def OutputForm.Honours (columns : List OutputColumn) (result : Except OutputFailure Formatted) : OutputForm → Prop
  | json => result = .ok (.text (library.write jdata ++ ['\n']))
  | noHeaders => PrintsTable client library jdata columns false result
  | jsonPointer pointer => PrintsDesignated library original pointer result
  | jsonPointerFile file => ∀ lines, files file = some lines → PrintsDesignated library original lines.flatten result
  | customColumns pairs => PrintsTable client library jdata (columnsOf pairs) true result
  | customColumnsFile file => ∀ first second, files file = some [first, second] →
      if (lineTokens first).length = (lineTokens second).length then
        PrintsTable client library jdata (columnsOf ((lineTokens first).zip (lineTokens second))) true result
      else Fails result

/-- The lines of a file give just these columns: their labels in the first line with words and
their pointers in the next one, which is the last line. -/
def GivesPairs (lines : List (List Char)) (pairs : List (List Char × List Char)) : Prop :=
  ∃ front labels middle pointers, lines = front ++ labels :: (middle ++ [pointers]) ∧
    (∀ text ∈ front ++ middle, lineTokens text = []) ∧ lineTokens labels ≠ [] ∧
      (lineTokens labels).length ≤ (lineTokens pointers).length ∧
        (lineTokens labels).zip (lineTokens pointers) = pairs

/-- The keyword of another format is in one of the labels or pointers. -/
def NamesFile (pairs : List (List Char × List Char)) : Prop :=
  ∃ pair ∈ pairs, customColumnsFileKeyword <:+: pair.1 ∨ customColumnsFileKeyword <:+: pair.2

/-- When the client does what the form is documented to do. -/
def OutputForm.Holds (columns : List OutputColumn) : OutputForm → Prop
  | json => True
  | noHeaders => Tabulates client library jdata columns false
  | jsonPointer pointer => designated library original pointer = some (library.write jdata)
  | jsonPointerFile file => ∀ lines, files file = some lines →
      designated library original lines.flatten = some (library.write jdata)
  | customColumns pairs => Tabulates client library jdata (columnsOf pairs) true ∧
      (NamesFile pairs → ∃ lines, files (pairsText pairs) = some lines ∧ GivesPairs lines pairs) ∧
        (¬ NamesFile pairs → ∀ pair, pairs.getLast? = some pair → pair.2 ≠ [])
  | customColumnsFile file => ∀ first second, files file = some [first, second] →
      if (lineTokens first).length = (lineTokens second).length then
        Tabulates client library jdata (columnsOf ((lineTokens first).zip (lineTokens second))) true
      else lineTokens first ≠ [] ∧ (lineTokens first).length < (lineTokens second).length ∧
        ¬ Tabulates client library jdata (columnsOf ((lineTokens first).zip (lineTokens second))) true

variable {keyword : List Char} {sep : Char}

theorem names_iff (text keyword : List Char) : names text keyword = true ↔ keyword <:+: text := by
  rw [names, position, List.findIdx?_isSome, List.any_eq_true, List.infix_iff_prefix_suffix]
  constructor
  · rintro ⟨tail, member, here⟩
    exact ⟨tail, List.isPrefixOf_iff_prefix.mp here, (List.mem_tails ..).mp member⟩
  · rintro ⟨tail, here, suffix⟩
    exact ⟨tail, (List.mem_tails ..).mpr suffix, List.isPrefixOf_iff_prefix.mpr here⟩

private theorem prefix_of_free (free : sep ∉ keyword) {front behind : List Char} (here : keyword <+: front ++ sep :: behind) :
    keyword <+: front := by
  induction front generalizing keyword with
  | nil =>
    cases keyword with
    | nil => exact List.prefix_refl []
    | cons c keyword =>
      have same := (List.cons_prefix_cons.mp here).1
      exact absurd (same ▸ .head _) free
  | cons c front ih =>
    cases keyword with
    | nil => exact List.nil_prefix
    | cons d keyword =>
      obtain ⟨rfl, rest⟩ := List.cons_prefix_cons.mp here
      exact List.cons_prefix_cons.mpr ⟨rfl, ih (fun member => free (.tail _ member)) rest⟩

/-- A keyword without the separator is on one of its sides. -/
theorem infix_append_cons (free : sep ∉ keyword) (proper : keyword ≠ []) (front behind : List Char) :
    keyword <:+: front ++ sep :: behind ↔ keyword <:+: front ∨ keyword <:+: behind := by
  constructor
  · intro here
    induction front with
    | nil =>
      rcases List.infix_cons_iff.mp here with first | later
      · exact absurd (List.prefix_nil.mp (@prefix_of_free _ _ free [] behind first)) proper
      · exact .inr later
    | cons c front ih =>
      rcases List.infix_cons_iff.mp here with first | later
      · exact .inl (@prefix_of_free _ _ free (c :: front) behind first).isInfix
      · exact (ih later).imp_left fun inside => List.infix_cons_iff.mpr (.inr inside)
  · rintro (inside | inside)
    · exact inside.trans (List.prefix_append front (sep :: behind)).isInfix
    · exact inside.trans ((List.suffix_cons sep behind).trans (List.suffix_append front (sep :: behind))).isInfix

private theorem infix_pair (pair : List Char × List Char) : customColumnsFileKeyword <:+: pair.1 ++ ':' :: pair.2 ↔
    customColumnsFileKeyword <:+: pair.1 ∨ customColumnsFileKeyword <:+: pair.2 :=
  infix_append_cons (by decide) (by decide) pair.1 pair.2

/-- The keyword is in the text of the columns if it is in a label or a pointer. -/
theorem names_pairsText (pairs : List (List Char × List Char)) :
    customColumnsFileKeyword <:+: pairsText pairs ↔ NamesFile pairs := by
  fun_induction pairsText pairs with
  | case1 => exact iff_of_false (by decide) (by simp [NamesFile])
  | case2 pair =>
    rw [infix_pair]
    simp [NamesFile]
  | case3 pair pairs some ih =>
    rw [infix_append_cons (by decide) (by decide), infix_append_cons (by decide) (by decide), ih, ← or_assoc]
    simp only [NamesFile, List.exists_mem_cons_iff]

variable {client library files jdata original} {columns : List OutputColumn} {headers : Bool}

private theorem jsonListToTable_ok {output : Formatted} (made : jsonListToTable client library jdata columns headers = .ok output) :
    ∃ rows, output = .table columns headers rows := by
  unfold jsonListToTable at made
  cases found : tableRows library columns jdata with
  | error failure =>
    rw [found] at made
    cases made
  | ok rows =>
    rw [found] at made
    cases sorted : sortRows client library columns rows with
    | error failure =>
      simp only [bind, Except.bind, sorted] at made
      cases made
    | ok rows =>
      simp only [bind, Except.bind, sorted] at made
      cases made
      exact ⟨_, rfl⟩

theorem mapM_error {α β : Type} {f : α → Except OutputFailure β} {property : OutputFailure → Prop}
    (each : ∀ item failure, f item = .error failure → property failure) {items : List α} {failure : OutputFailure}
    (failed : items.mapM f = .error failure) : property failure := by
  induction items with
  | nil => cases failed
  | cons item items ih =>
    rw [List.mapM_cons] at failed
    cases here : f item with
    | error other =>
      rw [here] at failed
      cases failed
      exact each item failure here
    | ok value =>
      rw [here] at failed
      cases later : items.mapM f with
      | error other =>
        simp only [bind, Except.bind, later] at failed
        cases failed
        exact ih later
      | ok values =>
        simp only [bind, Except.bind, later] at failed
        cases failed

def OutputFailure.Thrown (failure : OutputFailure) : Prop := ∃ message, failure = .exception message

private theorem jsonValueToString_error {value : Json} {failure : OutputFailure}
    (failed : jsonValueToString library value = .error failure) : failure.Thrown := by
  cases value <;> cases failed <;> exact ⟨_, rfl⟩

private theorem tableCell_error {row : Json} {column : OutputColumn} {failure : OutputFailure}
    (failed : tableCell library row column = .error failure) : failure.Thrown := by
  unfold tableCell at failed
  split at failed
  next =>
    split at failed
    next => cases failed
    next =>
      cases failed
      exact ⟨_, rfl⟩
  next => exact jsonValueToString_error failed

private theorem tableRows_error {failure : OutputFailure} (failed : tableRows library columns jdata = .error failure) :
    failure.Thrown := by
  unfold tableRows at failed
  split at failed
  next => exact mapM_error (fun _ _ failed => mapM_error (fun _ _ => tableCell_error) failed) failed
  next => exact mapM_error (fun _ _ failed => mapM_error (fun _ _ => tableCell_error) failed) failed
  next => cases failed

/-- Where there is a column, one of them is looked at to sort the rows. -/
theorem sortRows_ok (some : columns ≠ []) (rows : List (List (List Char))) :
    ∃ sorted, sortRows client library columns rows = .ok sorted := by
  unfold sortRows
  split
  next => exact ⟨_, rfl⟩
  next indexer found =>
    have inside : indexer < columns.length := by
      unfold sortColumn at found
      split at found
      next => exact (List.findIdx?_eq_some_iff_getElem.mp found).1
      next =>
        cases found
        exact List.length_pos_iff.mpr some
    rw [if_neg fun both => absurd both.2 (Nat.not_le.mpr inside)]
    exact ⟨_, rfl⟩

private theorem jsonListToTable_error {failure : OutputFailure} (some : columns ≠ [])
    (failed : jsonListToTable client library jdata columns headers = .error failure) : failure.Thrown := by
  unfold jsonListToTable at failed
  cases found : tableRows library columns jdata with
  | error other =>
    rw [found] at failed
    cases failed
    exact tableRows_error found
  | ok rows =>
    obtain ⟨sorted, here⟩ := @sortRows_ok client library columns some rows
    rw [found] at failed
    simp only [bind, Except.bind, here] at failed
    cases failed

theorem takeWhile_free {front behind : List Char} (absent : sep ∉ front) :
    (front ++ sep :: behind).takeWhile (· ≠ sep) = front := by
  rw [List.takeWhile_append_of_pos, List.takeWhile_cons_of_neg (by simp), List.append_nil]
  intro c member
  exact decide_eq_true fun same => absent (same ▸ member)

theorem drop_behind {front behind : List Char} : (front ++ sep :: behind).drop (front.length + 1) = behind := by
  have whole : front ++ sep :: behind = (front ++ [sep]) ++ behind := by simp
  rw [whole]
  exact List.drop_left' (by simp)

/-- One round of the parser, whose next one begins behind the comma. -/
theorem inlineColumns_cons {label behind : List Char} (absent : ':' ∉ label) (proper : behind ≠ []) :
    inlineColumns (label ++ ':' :: behind) = (do
      let others ← inlineColumns (behind.drop ((behind.takeWhile (· ≠ ',')).length + 1))
      return { label, attr := behind.takeWhile (· ≠ ',') } :: others) := by
  rw [inlineColumns, dif_neg (by simp), if_neg (by simp)]
  simp only [takeWhile_free absent, drop_behind]
  rw [if_neg proper]

private theorem inlineColumns_last {label : List Char} (absent : ':' ∉ label) :
    inlineColumns (label ++ [':']) = .error (.exception missingAttribute) := by
  rw [inlineColumns, dif_neg (by simp), if_neg (by simp)]
  simp only [takeWhile_free absent, drop_behind, if_true]
  rfl

private theorem inlineColumns_nil : inlineColumns [] = .ok [] := by
  rw [inlineColumns, dif_pos rfl]

/-- A last label whose pointer is empty is refused, and all other columns are read as they were given. -/
theorem inlineColumns_pairsText {pairs : List (List Char × List Char)}
    (documented : ∀ pair ∈ pairs, (':' ∉ pair.1 ∧ ',' ∉ pair.1) ∧ ',' ∉ pair.2) :
    ((∃ pair, pairs.getLast? = some pair ∧ pair.2 = []) ∧
        inlineColumns (pairsText pairs) = .error (.exception missingAttribute)) ∨
      (¬ ∃ pair, pairs.getLast? = some pair ∧ pair.2 = []) ∧ inlineColumns (pairsText pairs) = .ok (columnsOf pairs) := by
  fun_induction pairsText pairs with
  | case1 => exact .inr ⟨by simp, inlineColumns_nil⟩
  | case2 pair =>
    obtain ⟨⟨colon, -⟩, comma⟩ := documented pair (.head _)
    by_cases empty : pair.2 = []
    · rw [empty]
      exact .inl ⟨⟨pair, rfl, empty⟩, inlineColumns_last colon⟩
    · have all : ∀ c ∈ pair.2, decide (c ≠ ',') = true := fun c member => decide_eq_true fun same => comma (same ▸ member)
      have whole : pair.2.takeWhile (· ≠ ',') = pair.2 := by
        have kept := @List.takeWhile_append_of_pos _ _ pair.2 [] all
        rwa [List.append_nil, List.takeWhile_nil, List.append_nil] at kept
      refine .inr ⟨?_, ?_⟩
      · rintro ⟨other, last, none⟩
        cases last
        exact empty none
      · rw [inlineColumns_cons colon empty, whole, List.drop_eq_nil_of_le (Nat.le_succ _), inlineColumns_nil]
        rfl
  | case3 pair pairs some ih =>
    obtain ⟨⟨colon, -⟩, comma⟩ := documented pair (.head _)
    have last : (pair :: pairs).getLast? = pairs.getLast? := by
      cases pairs with
      | nil => exact absurd rfl some
      | cons other pairs => exact List.getLast?_cons_cons
    have rest := ih fun other member => documented other (.tail _ member)
    rw [inlineColumns_cons colon (by simp), takeWhile_free comma, drop_behind, last]
    rcases rest with ⟨ends, refused⟩ | ⟨ends, read⟩
    · rw [refused]
      exact .inl ⟨ends, rfl⟩
    · rw [read]
      exact .inr ⟨ends, rfl⟩

private theorem fileColumns_pair (first second : List Char) :
    fileColumns [first, second] =
      if lineTokens first = [] then pairColumns (lineTokens second) []
      else pairColumns (lineTokens first) (lineTokens second) := by
  by_cases blank : lineTokens first = []
  · simp [fileColumns, columnLine, blank, bind, Except.bind, pure, Except.pure]
  · simp [fileColumns, columnLine, blank, bind, Except.bind, pure, Except.pure]

private theorem columnsOf_zip (labels pointers : List (List Char)) :
    columnsOf (labels.zip pointers) = labels.zipWith (fun label attr => { label, attr }) pointers := by
  rw [columnsOf, List.zip, List.map_zipWith]

private theorem columnsOf_injective {pairs others : List (List Char × List Char)} (same : columnsOf pairs = columnsOf others) :
    pairs = others := by
  apply List.map_injective_iff.mpr _ same
  intro pair other same
  simp only [OutputColumn.mk.injEq, and_true] at same
  exact Prod.ext same.1 same.2

private theorem foldlM_full {labels pointers : List (List Char)} (some : labels ≠ []) (given : pointers ≠ [])
    {lines : List (List Char)} {read : List (List Char) × List (List Char)} :
    lines.foldlM columnLine (labels, pointers) = .ok read ↔ lines = [] ∧ read = (labels, pointers) := by
  cases lines with
  | nil =>
    rw [List.foldlM_nil]
    constructor
    · intro same
      cases same
      exact ⟨rfl, rfl⟩
    · rintro ⟨-, rfl⟩
      rfl
  | cons text lines =>
    have refused : ∃ failure, columnLine (labels, pointers) text = .error failure := by
      rw [columnLine, if_neg some, if_neg given]
      exact ⟨_, rfl⟩
    obtain ⟨failure, refused⟩ := refused
    rw [List.foldlM_cons, refused]
    exact iff_of_false (by simp [bind, Except.bind]) (by simp)

/-- Behind the labels the next line with words is the last one. -/
theorem foldlM_labels {labels : List (List Char)} (some : labels ≠ []) {lines : List (List Char)}
    {labels' pointers : List (List Char)} (given : pointers ≠ []) :
    lines.foldlM columnLine (labels, []) = .ok (labels', pointers) ↔ labels' = labels ∧
      ∃ middle last, lines = middle ++ [last] ∧ (∀ text ∈ middle, lineTokens text = []) ∧ lineTokens last = pointers := by
  induction lines with
  | nil =>
    refine iff_of_false ?_ ?_
    · intro same
      cases same
      exact given rfl
    · rintro ⟨-, middle, last, same, -⟩
      simp at same
  | cons text lines ih =>
    have here : columnLine (labels, []) text = .ok (labels, lineTokens text) := by rw [columnLine, if_neg some, if_pos rfl]
    rw [List.foldlM_cons, here]
    change lines.foldlM columnLine (labels, lineTokens text) = _ ↔ _
    by_cases blank : lineTokens text = []
    · rw [blank, ih]
      refine and_congr_right fun _ => ⟨?_, ?_⟩
      · rintro ⟨middle, last, rfl, blanks, same⟩
        exact ⟨text :: middle, last, rfl, List.forall_mem_cons.mpr ⟨blank, blanks⟩, same⟩
      · rintro ⟨middle, last, whole, blanks, same⟩
        cases middle with
        | nil =>
          cases whole
          exact absurd (same.symm.trans blank) given
        | cons other middle =>
          cases whole
          exact ⟨middle, last, rfl, (List.forall_mem_cons.mp blanks).2, same⟩
    · rw [foldlM_full some blank]
      constructor
      · rintro ⟨rfl, same⟩
        cases same
        exact ⟨rfl, [], text, rfl, by simp, rfl⟩
      · rintro ⟨rfl, middle, last, whole, blanks, same⟩
        cases middle with
        | nil =>
          cases whole
          exact ⟨rfl, by rw [same]⟩
        | cons other middle =>
          cases whole
          exact absurd (blanks text (.head _)) blank

private theorem foldlM_start {lines labels pointers : List (List Char)} (some : labels ≠ []) (given : pointers ≠ []) :
    lines.foldlM columnLine ([], []) = .ok (labels, pointers) ↔ ∃ front first middle last,
      lines = front ++ first :: (middle ++ [last]) ∧ (∀ text ∈ front ++ middle, lineTokens text = []) ∧
        lineTokens first = labels ∧ lineTokens last = pointers := by
  induction lines with
  | nil =>
    refine iff_of_false ?_ ?_
    · intro same
      cases same
      exact some rfl
    · rintro ⟨front, first, middle, last, same, -⟩
      simp at same
  | cons text lines ih =>
    have here : columnLine ([], []) text = .ok (lineTokens text, []) := by rw [columnLine, if_pos rfl]
    rw [List.foldlM_cons, here]
    change lines.foldlM columnLine (lineTokens text, []) = _ ↔ _
    by_cases blank : lineTokens text = []
    · rw [blank, ih]
      constructor
      · rintro ⟨front, first, middle, last, rfl, blanks, same⟩
        exact ⟨text :: front, first, middle, last, rfl, List.forall_mem_cons.mpr ⟨blank, blanks⟩, same⟩
      · rintro ⟨front, first, middle, last, whole, blanks, same⟩
        cases front with
        | nil =>
          cases whole
          exact absurd (same.1.symm.trans blank) some
        | cons other front =>
          cases whole
          exact ⟨front, first, middle, last, rfl, (List.forall_mem_cons.mp blanks).2, same⟩
    · rw [foldlM_labels blank given]
      constructor
      · rintro ⟨rfl, middle, last, rfl, blanks, same⟩
        exact ⟨[], text, middle, last, rfl, blanks, rfl, same⟩
      · rintro ⟨front, first, middle, last, whole, blanks, same, same'⟩
        cases front with
        | nil =>
          cases whole
          exact ⟨same.symm, middle, last, rfl, blanks, same'⟩
        | cons other front =>
          cases whole
          exact absurd (blanks text (.head _)) blank

theorem pairColumns_eq {labels data : List (List Char)} {columns : List OutputColumn} :
    pairColumns labels data = .ok columns ↔ labels.length ≤ data.length ∧ columnsOf (labels.zip data) = columns := by
  unfold pairColumns
  split
  next short => exact iff_of_false (by simp [throw, throwThe, MonadExceptOf.throw]) fun both => absurd both.1 (by omega)
  next enough =>
    rw [columnsOf_zip, Except.ok.injEq]
    exact ⟨fun same => ⟨by omega, same⟩, fun both => both.2⟩

/-- The columns that a file gives, where it gives any. -/
theorem fileColumns_iff {lines : List (List Char)} {pairs : List (List Char × List Char)} (some : pairs ≠ []) :
    fileColumns lines = .ok (columnsOf pairs) ↔ GivesPairs lines pairs := by
  constructor
  · intro gives
    unfold fileColumns at gives
    cases found : lines.foldlM columnLine ([], []) with
    | error failure =>
      rw [found] at gives
      cases gives
    | ok read =>
      rw [found] at gives
      change pairColumns read.1 read.2 = _ at gives
      obtain ⟨fits, same⟩ := pairColumns_eq.mp gives
      have same := columnsOf_injective same
      have labels : read.1 ≠ [] := by
        intro none
        rw [none, List.zip_nil_left] at same
        exact some same.symm
      have pointers : read.2 ≠ [] := by
        intro none
        rw [none, List.zip_nil_right] at same
        exact some same.symm
      obtain ⟨front, first, middle, last, whole, blanks, first', last'⟩ := (foldlM_start labels pointers).mp found
      exact ⟨front, first, middle, last, whole, blanks, first' ▸ labels, by rw [first', last']; exact fits,
        by rw [first', last']; exact same⟩
  · rintro ⟨front, first, middle, last, whole, blanks, labels, fits, same⟩
    have pointers : lineTokens last ≠ [] := by
      intro none
      rw [none, List.zip_nil_right] at same
      exact some same.symm
    have found := (foldlM_start labels pointers).mpr ⟨front, first, middle, last, whole, blanks, rfl, rfl⟩
    rw [fileColumns, found]
    exact pairColumns_eq.mpr ⟨fits, by rw [same]⟩

private theorem tabulates_iff {headers : Bool} : Tabulates client library jdata columns headers ↔
    ∃ output, jsonListToTable client library jdata columns headers = .ok output := by
  constructor
  · rintro ⟨rows, made⟩
    exact ⟨_, made⟩
  · rintro ⟨output, made⟩
    obtain ⟨rows, rfl⟩ := jsonListToTable_ok made
    exact ⟨rows, made⟩

/-- A table is the one in the given columns if it has been made in these columns. -/
theorem printsTable_iff {columns' : List OutputColumn} {headers : Bool} :
    PrintsTable client library jdata columns headers (jsonListToTable client library jdata columns' headers) ↔
      columns' = columns ∧ Tabulates client library jdata columns headers := by
  constructor
  · rintro ⟨rows, made, same⟩
    obtain ⟨rows', same'⟩ := jsonListToTable_ok same
    cases same'
    exact ⟨rfl, rows, made⟩
  · rintro ⟨rfl, rows, made⟩
    exact ⟨rows, made, made⟩

theorem not_printsTable {failure : OutputFailure} {headers : Bool} :
    ¬ PrintsTable client library jdata columns headers (.error failure) := by
  rintro ⟨rows, -, same⟩
  cases same

private theorem fails_iff {headers : Bool} (some : columns ≠ []) : Fails (jsonListToTable client library jdata columns headers) ↔
    ¬ Tabulates client library jdata columns headers := by
  rw [tabulates_iff]
  cases made : jsonListToTable client library jdata columns headers with
  | ok output => exact iff_of_false (by simp [Fails]) (by simp)
  | error failure =>
    obtain ⟨message, rfl⟩ := jsonListToTable_error some made
    exact iff_of_true ⟨message, rfl⟩ (by simp)

/-- The option with what stands behind its sign of equality. -/
theorem formatOption_ok {front behind : List Char} (absent : '=' ∉ front) (proper : behind ≠ []) (missing empty : String) :
    formatOption (front ++ '=' :: behind) missing empty = .ok behind := by
  have argument : formatArgument (front ++ '=' :: behind) = behind := by
    rw [formatArgument, takeWhile_free absent, drop_behind]
  rw [formatOption, if_neg (by simp), argument, if_neg proper]

variable (orderBy : List Char)

/-- What a text that does not begin as the one of documents does with the columns of a file. -/
theorem formatOutput_file {front behind : List Char} (other : front.take 4 ≠ "json".toList) (long : 4 ≤ front.length)
    (absent : '=' ∉ front) (proper : behind ≠ []) (named : customColumnsFileKeyword <:+: front ++ '=' :: behind) :
    formatOutput ⟨front ++ '=' :: behind, orderBy⟩ library files jdata original columns =
      (match files behind with
        | none => .error (.exception "The specified file for custom columns was not able to be opened")
        | some lines => (fileColumns lines).bind fun columns =>
          jsonListToTable ⟨front ++ '=' :: behind, orderBy⟩ library jdata columns true) := by
  have document : ¬ clientShouldPrintOnlyJson ⟨front ++ '=' :: behind, orderBy⟩ = true := by
    rw [clientShouldPrintOnlyJson, List.take_append_of_le_length long]
    simpa using other
  rw [formatOutput, if_neg document, if_pos ((names_iff ..).mpr named)]
  simp only [formatOption_ok absent proper, bind, Except.bind, readOutputFile]
  cases files behind <;> rfl

private theorem formatOutput_inline {front behind : List Char} (other : front.take 4 ≠ "json".toList) (long : 4 ≤ front.length)
    (absent : '=' ∉ front) (proper : behind ≠ []) (unnamed : ¬ customColumnsFileKeyword <:+: front ++ '=' :: behind)
    (named : customColumnsKeyword <:+: front) :
    formatOutput ⟨front ++ '=' :: behind, orderBy⟩ library files jdata original columns =
      (inlineColumns behind).bind fun columns =>
        jsonListToTable ⟨front ++ '=' :: behind, orderBy⟩ library jdata columns true := by
  have document : ¬ clientShouldPrintOnlyJson ⟨front ++ '=' :: behind, orderBy⟩ = true := by
    rw [clientShouldPrintOnlyJson, List.take_append_of_le_length long]
    simpa using other
  have here := (names_iff _ _).mpr (named.trans (List.prefix_append front ('=' :: behind)).isInfix)
  rw [formatOutput, if_neg document, if_neg fun there => unnamed ((names_iff ..).mp there), if_pos here]
  simp only [formatOption_ok absent proper, bind, Except.bind]

theorem formatOutput_document (behind : List Char) :
    formatOutput ⟨"json".toList ++ behind, orderBy⟩ library files jdata original columns =
      .ok (.text (library.write jdata ++ ['\n'])) := by
  rw [formatOutput, if_pos]
  rfl

private theorem formatOutput_noHeaders {format : List Char} (same : format = "no-headers".toList) :
    formatOutput ⟨format, orderBy⟩ library files jdata original columns =
      jsonListToTable ⟨format, orderBy⟩ library jdata columns false := by
  have document : format.take 4 ≠ "json".toList := same ▸ by decide
  have first : ¬ names format customColumnsFileKeyword = true := same ▸ by decide
  have second : ¬ names format customColumnsKeyword = true := same ▸ by decide
  rw [formatOutput, if_neg (by simpa [clientShouldPrintOnlyJson] using document), if_neg first, if_neg second, if_pos same]

/-- The text of the document is what a pointer was to print only if it is the designated string. -/
theorem printsDesignated_iff (pointer : List Char) :
    PrintsDesignated library original pointer (.ok (.text (library.write jdata ++ ['\n']))) ↔
      designated library original pointer = some (library.write jdata) := by
  unfold PrintsDesignated
  cases designated library original pointer with
  | none => exact iff_of_false (by simp [Fails]) (by simp)
  | some string => simp [eq_comm]

private theorem customColumns_honours {pairs : List (List Char × List Char)} (some : pairs ≠ [])
    (apart : ∀ pair ∈ pairs, (':' ∉ pair.1 ∧ ',' ∉ pair.1) ∧ ',' ∉ pair.2) {client : OutputClient}
    (same : client = ⟨"custom-columns".toList ++ '=' :: pairsText pairs, orderBy⟩) :
    PrintsTable client library jdata (columnsOf pairs) true (formatOutput client library files jdata original columns) ↔
      (OutputForm.customColumns pairs).Holds client library files jdata original columns := by
  have proper : pairsText pairs ≠ [] := by
    fun_cases pairsText pairs with
    | case1 => exact absurd rfl some
    | case2 pair => simp
    | case3 pair pairs => simp
  have named : customColumnsFileKeyword <:+: "custom-columns".toList ++ '=' :: pairsText pairs ↔ NamesFile pairs := by
    rw [infix_append_cons (by decide) (by decide), names_pairsText]
    exact or_iff_right (by decide)
  subst same
  simp only [OutputForm.Holds]
  by_cases captured : NamesFile pairs
  · rw [formatOutput_file orderBy (by decide) (by decide) (by decide) proper (named.mpr captured)]
    simp only [captured, not_true_eq_false, false_implies, true_implies, and_true]
    cases read : files (pairsText pairs) with
    | none => exact iff_of_false not_printsTable fun both => by simp at both
    | some lines =>
      have gives := @fileColumns_iff lines pairs some
      simp only [Option.some.injEq, exists_eq_left']
      cases found : fileColumns lines with
      | error failure =>
        rw [found] at gives
        exact iff_of_false not_printsTable fun both => by cases gives.mpr both.2
      | ok columns' =>
        rw [found, Except.ok.injEq] at gives
        exact printsTable_iff.trans (and_comm.trans (and_congr_right fun _ => gives))
  · rw [formatOutput_inline orderBy (by decide) (by decide) (by decide) proper (fun there => captured (named.mp there))
      (by decide)]
    simp only [captured, not_false_eq_true, false_implies, true_implies, true_and]
    rcases inlineColumns_pairsText apart with ⟨⟨pair, last, empty⟩, refused⟩ | ⟨full, read⟩
    · rw [refused]
      exact iff_of_false not_printsTable fun both => both.2 pair last empty
    · rw [read]
      refine printsTable_iff.trans ⟨fun both => ⟨both.2, fun pair last empty => full ⟨pair, last, empty⟩⟩, fun both => ⟨rfl, both.1⟩⟩

/-- What the file of columns is to print. -/
theorem customColumnsFile_honours {file first second : List Char} (proper : file ≠ []) (read : files file = some [first, second])
    (worded : lineTokens first ≠ [] ∨ lineTokens second ≠ []) {client : OutputClient}
    (same : client = ⟨customColumnsFileKeyword ++ '=' :: file, orderBy⟩) :
    (if (lineTokens first).length = (lineTokens second).length then
        PrintsTable client library jdata (columnsOf ((lineTokens first).zip (lineTokens second))) true
          (formatOutput client library files jdata original columns)
      else Fails (formatOutput client library files jdata original columns)) ↔
      if (lineTokens first).length = (lineTokens second).length then
        Tabulates client library jdata (columnsOf ((lineTokens first).zip (lineTokens second))) true
      else lineTokens first ≠ [] ∧ (lineTokens first).length < (lineTokens second).length ∧
        ¬ Tabulates client library jdata (columnsOf ((lineTokens first).zip (lineTokens second))) true := by
  have named : customColumnsFileKeyword <:+: customColumnsFileKeyword ++ '=' :: file := (List.prefix_append ..).isInfix
  subst same
  rw [formatOutput_file orderBy (by decide) (by decide) (by decide) proper named, read]
  simp only [fileColumns_pair]
  by_cases blank : lineTokens first = []
  · have other := worded.resolve_left (not_not_intro blank)
    have positive := List.length_pos_iff.mpr other
    have undefined : pairColumns (lineTokens second) [] = .error .undefined := if_pos positive
    have differ : ¬ (lineTokens first).length = (lineTokens second).length := by
      rw [blank, List.length_nil]
      omega
    rw [if_neg differ, if_neg differ, if_pos blank, undefined]
    exact iff_of_false (by simp [Fails, Except.bind]) fun both => both.1 blank
  · rw [if_neg blank]
    rcases Nat.lt_or_ge (lineTokens second).length (lineTokens first).length with short | enough
    · have undefined : pairColumns (lineTokens first) (lineTokens second) = .error .undefined := if_pos short
      rw [if_neg (by omega), if_neg (by omega), undefined]
      exact iff_of_false (by simp [Fails, Except.bind]) fun both => by omega
    · have paired := pairColumns_eq.mpr ⟨enough, rfl⟩
      rw [paired]
      by_cases equal : (lineTokens first).length = (lineTokens second).length
      · rw [if_pos equal, if_pos equal]
        exact printsTable_iff.trans (and_iff_right rfl)
      · rw [if_neg equal, if_neg equal]
        have column : columnsOf ((lineTokens first).zip (lineTokens second)) ≠ [] := by
          have positive := List.length_pos_iff.mpr blank
          apply List.length_pos_iff.mp
          rw [columnsOf, List.length_map, List.length_zip]
          omega
        exact (fails_iff column).trans
          ⟨fun failed => ⟨blank, Nat.lt_of_le_of_ne enough equal, failed⟩, fun both => both.2.2⟩

def memberLibrary : OutputLibrary where
  write
    | .object [(name, .string value)] =>
      "\x7b\"".toList ++ name.toList ++ "\":\"".toList ++ value.toList ++ "\"\x7d".toList
    | _ => "null".toList
  resolve pointer document := (pointer.splitOn '/').tail.foldlM (fun value name => value.member (String.ofList name)) document
  numberText value _ := (toString value.num).toList
  sort _ rows := rows

def namedDocument : Json := .object [("name", .string "web")]

def shortFiles : OutputFiles := fun file =>
  if file = "columns".toList then some ["NAME ID".toList, "/name".toList] else none

end Slate
