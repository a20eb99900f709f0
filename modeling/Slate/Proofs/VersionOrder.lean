import Slate.Versions

/-! Where the comparison of version texts is the one that it stands for. The induction is
on the passes of the loop up to the one that decides. -/

namespace Slate
open Library Versions

/-- An order of versions as the number that stands for it. -/
def answerOf : Ordering → Int
  | .lt => -1
  | .eq => 0
  | .gt => 1

private theorem answerOf_swap (order : Ordering) : answerOf order.swap = - answerOf order := by cases order <;> rfl

theorem answerOf_nonpositive {order : Ordering} : answerOf order ≤ 0 ↔ order.isLE := by cases order <;> decide

/-- The numbers that a comparison gives are those of one order of versions, the
comparison is not without an answer, and the order is the one of rpm. -/
structure ConsistentOrder (compared : Bytes → Bytes → Option Int) (versions : List Bytes) : Prop where
  set : ∀ a ∈ versions, ∀ b ∈ versions, compared a b ≠ none
  negated : ∀ a ∈ versions, ∀ b ∈ versions, compared a b = (compared b a).map (- ·)
  same : ∀ a ∈ versions, ∀ b ∈ versions, a = b → compared a b = some 0
  transitive : ∀ a ∈ versions, ∀ b ∈ versions, ∀ c ∈ versions,
    (∃ result ≤ 0, compared a b = some result) → (∃ result ≤ 0, compared b c = some result) →
      ∃ result ≤ 0, compared a c = some result
  rpm : ∀ a ∈ versions, ∀ b ∈ versions, compared a b = some (answerOf (rpmvercmp a b))

/-- Agreement with rpm is all that a consistent order asks. -/
theorem ConsistentOrder.of_rpm {compared : Bytes → Bytes → Option Int} {versions : List Bytes}
    (rpm : ∀ a ∈ versions, ∀ b ∈ versions, compared a b = some (answerOf (rpmvercmp a b))) :
    ConsistentOrder compared versions where
  set a left b right := by rw [rpm a left b right]; exact Option.some_ne_none _
  negated a left b right := by
    rw [rpm a left b right, rpm b right a left, rpmvercmp_swap, answerOf_swap]
    rfl
  same a left b right equal := by
    rw [rpm a left b right, equal, rpmvercmp_self]
    rfl
  transitive a left b middle c right := by
    rw [rpm a left b middle, rpm b middle c right, rpm a left c right]
    rintro ⟨first, older, found⟩ ⟨second, newer, next⟩
    cases found
    cases next
    have ordered := rpmvercmp_trans (answerOf_nonpositive.mp older) (answerOf_nonpositive.mp newer)
    exact ⟨_, answerOf_nonpositive.mpr ordered, rfl⟩
  rpm := rpm

def begins (accepts : UInt8 → Bool) (text : Bytes) : Bool := text.head?.any accepts

def isTilde (c : UInt8) : Bool := c == tilde

def isAlnum (c : UInt8) : Bool := isDigit c || isAlpha c

def afterNumber (text : Bytes) : Bytes := (trim text).dropWhile isDigit

def afterLetters (text : Bytes) : Bytes := (trim text).dropWhile isAlpha

/-- Which of the numbers that two texts begin with is the smaller. -/
def frontNumbers (x y : Bytes) : Ordering := compareNumbers ((trim x).takeWhile isDigit) ((trim y).takeWhile isDigit)

def frontLetters (x y : Bytes) : Ordering := compare ((trim x).takeWhile isAlpha) ((trim y).takeWhile isAlpha)

/-- What follows a tilde in both texts is read without more: one of them has ended there,
both go on with segments, or the first goes on with a number alone and the second with
a tilde. -/
def Onward (x y : Bytes) : Prop :=
  x = [] ∨ y = [] ∨ begins isAlnum x ∧ begins isAlnum y ∨
    begins isDigit x ∧ ¬ begins isAlpha (afterNumber x) ∧ begins isTilde y

/-- Up to the pass that decides, the comparison of what is left of two versions meets
neither a tilde or only separators after the end of one of them, nor only separators left
of the first or between letters and the end of the second, nor after tildes anything but
segments, nor a number that letters follow at once, unless the number is the same in the
second and letters follow it there too. -/
inductive WellRead : Bytes → Bytes → Prop
  | ended : WellRead [] []
  | leftEnded {y : Bytes} (more : begins isAlnum (trim y)) : WellRead [] y
  | rightEnded {x : Bytes} (more : begins isAlnum (trim x)) : WellRead x []
  | leftTilde {x y : Bytes} (more : y ≠ []) (left : begins isTilde (trim x)) (right : ¬ begins isTilde (trim y)) :
      WellRead x y
  | rightTilde {x y : Bytes} (more : x ≠ []) (left : ¬ begins isTilde (trim x)) (right : begins isTilde (trim y)) :
      WellRead x y
  | tildes {x y x' y' : Bytes} (left : trim x = tilde :: x') (right : trim y = tilde :: y')
      (onward : Onward x' y') (rest : WellRead x' y') : WellRead x y
  | numberOnly {x y : Bytes} (more : y ≠ []) (left : begins isDigit (trim x)) (right : ¬ begins isDigit (trim y))
      (plain : ¬ begins isTilde (trim y)) (alone : ¬ begins isAlpha (afterNumber x)) : WellRead x y
  | numbers {x y : Bytes} (left : begins isDigit (trim x)) (right : begins isDigit (trim y))
      (alone : ¬ begins isAlpha (afterNumber x) ∨ begins isAlpha (afterNumber y) ∧ frontNumbers x y = .eq)
      (rest : frontNumbers x y = .eq → WellRead (afterNumber x) (afterNumber y)) : WellRead x y
  | lettersOnly {x y : Bytes} (left : begins isAlpha (trim x)) (right : begins isDigit (trim y)) : WellRead x y
  | letters {x y : Bytes} (left : begins isAlpha (trim x)) (right : begins isAlpha (trim y))
      (rest : frontLetters x y = .eq → WellRead (afterLetters x) (afterLetters y)) : WellRead x y

theorem begins_iff {accepts : UInt8 → Bool} {text : Bytes} :
    begins accepts text ↔ ∃ c rest, text = c :: rest ∧ accepts c := by
  cases text with
  | nil => simp [begins]
  | cons c rest => simp [begins]

theorem front_eq {accepts : UInt8 → Bool} (proper : accepts 0 = false) (cursor : Cursor) :
    accepts cursor.front = begins accepts cursor.rest := by
  rcases cursor with ⟨segment, rest⟩
  cases rest with
  | nil => exact proper
  | cons c rest => rfl

private theorem toInt8_lt {c d : UInt8} (first : c < 128) (second : d < 128) : c.toInt8 < d.toInt8 ↔ c < d := by
  rw [UInt8.lt_iff_toNat_lt] at first second ⊢
  have value : ∀ e : UInt8, e.toNat < 128 → e.toInt8.toInt = e.toNat := by
    intro e small
    apply BitVec.toInt_eq_toNat_of_lt
    show 2 * e.toNat < 2 ^ 8
    omega
  rw [Int8.lt_iff_toInt_lt, value c first, value d second, Int.ofNat_lt]

/-- Segments of characters that are not negative are compared as texts are. -/
theorem compareSegments_eq : ∀ {x y : Bytes}, (∀ c ∈ x, c < 128) → (∀ c ∈ y, c < 128) →
    compareSegments x y = answerOf (compare x y)
  | [], [], _, _ => rfl
  | [], _ :: _, _, _ => rfl
  | _ :: _, [], _, _ => rfl
  | c :: x, d :: y, left, right => by
    have first := left c (.head _)
    have second := right d (.head _)
    have rest := compareSegments_eq (fun e member => left e (.tail _ member)) (fun e member => right e (.tail _ member))
    have chosen : compare c d = if c < d then .lt else if c = d then .eq else .gt := rfl
    rw [compareSegments, List.compare_cons_cons, rest, chosen]
    simp only [gt_iff_lt, toInt8_lt first second, toInt8_lt second first]
    split
    · rfl
    · split
      next other greater =>
        rw [if_neg fun same : c = d => UInt8.lt_irrefl d (same ▸ greater)]
        rfl
      next notLess notGreater =>
        have same : c = d := UInt8.le_antisymm (UInt8.not_lt.mp notGreater) (UInt8.not_lt.mp notLess)
        rw [if_pos same]
        rfl

/-- A pass that has popped a segment from both texts ends by their order. -/
def passOf (order : Ordering) (x y : Bytes) : Pass :=
  if order = .eq then .continues ⟨some [], x⟩ ⟨some [], y⟩ else .returns (answerOf order)

private theorem passOf_then (first second : Ordering) (x y : Bytes) :
    passOf (first.then second) x y = if first = .eq then passOf second x y else .returns (answerOf first) := by
  cases first <;> rfl

/-- Segments of which neither is longer are compared by their characters. -/
theorem comparedPass {x y left right : Bytes} (first : ∀ c ∈ left, c < 128) (second : ∀ c ∈ right, c < 128) :
    (if compareSegments left right ≠ 0 then Pass.returns (compareSegments left right)
      else .continues ⟨some [], x⟩ ⟨some [], y⟩) = passOf (compare left right) x y := by
  rw [compareSegments_eq first second, passOf]
  cases compare left right <;> rfl

private theorem comparePopped_number {m n x y : Bytes} (numeric : begins isDigit m) (first : ∀ c ∈ m, c < 128)
    (second : ∀ c ∈ n, c < 128) : comparePopped ⟨some m, x⟩ ⟨some n, y⟩ =
      if n = [] then .returns 1 else passOf (compareNumbers m n) x y := by
  obtain ⟨c, rest, rfl, digit⟩ := begins_iff.mp numeric
  have shown : ∀ {k : Bytes}, (∀ e ∈ k, e < 128) → ∀ e ∈ withoutZeros k, e < 128 :=
    fun small e member => small e ((List.dropWhile_sublist _).mem member)
  simp only [comparePopped, List.cons_append, List.headD_cons, digit, Bool.and_true, if_true, Bool.true_and,
    List.isEmpty_iff, decide_eq_true_eq]
  by_cases none : n = []
  · rw [if_pos none, if_pos none]
  · have notLetter : isAlpha c = false := by
      simp only [isDigit, isAlpha] at *
      grind
    rw [if_neg none, if_neg none, compareNumbers, passOf_then]
    simp only [notLetter, Bool.and_false, Bool.false_eq_true, if_false]
    rw [comparedPass (shown first) (shown second)]
    rcases Nat.lt_trichotomy (withoutZeros (c :: rest)).length (withoutZeros n).length with less | same | more
    · rw [if_neg (by omega), if_pos less, Nat.compare_eq_lt.mpr less]
      rfl
    · rw [if_neg (by omega), if_neg (by omega), Nat.compare_eq_eq.mpr same, if_pos rfl]
    · rw [if_pos more, Nat.compare_eq_gt.mpr more]
      rfl

private theorem comparePopped_letters {l r x y : Bytes} (worded : begins isAlpha l) (first : ∀ c ∈ l, c < 128)
    (second : ∀ c ∈ r, c < 128) : comparePopped ⟨some l, x⟩ ⟨some r, y⟩ =
      if r = [] then .returns (-1) else passOf (compare l r) x y := by
  obtain ⟨c, rest, rfl, letter⟩ := begins_iff.mp worded
  have notDigit : isDigit c = false := by
    simp only [isDigit, isAlpha] at *
    grind
  simp only [comparePopped, List.cons_append, List.headD_cons, letter, notDigit, Bool.and_false, Bool.and_true,
    Bool.false_eq_true, if_false, Bool.false_and, List.isEmpty_iff]
  rw [comparedPass first second]

private theorem digits_small (text : Bytes) : ∀ c ∈ text.takeWhile isDigit, c < 128 := by
  intro c member
  have digit := List.mem_takeWhile_imp member
  simp only [isDigit] at digit
  grind

private theorem letters_small (text : Bytes) : ∀ c ∈ text.takeWhile isAlpha, c < 128 := by
  intro c member
  have letter := List.mem_takeWhile_imp member
  simp only [isAlpha] at letter
  grind

private theorem begins_takeWhile {accepts : UInt8 → Bool} {text : Bytes} (first : begins accepts text) :
    begins accepts (text.takeWhile accepts) := by
  obtain ⟨c, rest, rfl, accepted⟩ := begins_iff.mp first
  rw [List.takeWhile_cons, if_pos accepted]
  exact accepted

theorem takeWhile_nil_iff {accepts : UInt8 → Bool} {text : Bytes} :
    text.takeWhile accepts = [] ↔ ¬ begins accepts text := by
  cases text with
  | nil => simp [begins]
  | cons c rest => simp [begins, List.takeWhile_cons]

theorem digit_not_alpha {text : Bytes} (digit : begins isDigit text) : ¬ begins isAlpha text := by
  obtain ⟨c, rest, rfl, numeric⟩ := begins_iff.mp digit
  intro letter
  simp only [begins, List.head?_cons, Option.any_some, isDigit, isAlpha] at *
  grind

theorem compareNext_eq (a b : Cursor) : compareNext a b =
    comparePopped (popBoth isAlpha (popBoth isDigit a b).1 (popBoth isDigit a b).2).1
      (popBoth isAlpha (popBoth isDigit a b).1 (popBoth isDigit a b).2).2 := rfl

theorem popBoth_some {accepts : UInt8 → Bool} (proper : accepts 0 = false) {a : Cursor} (b : Cursor)
    (first : begins accepts a.rest) : popBoth accepts a b = (a.pop accepts, b.pop accepts) :=
  if_pos ((front_eq proper a).trans first)

theorem popBoth_none {accepts : UInt8 → Bool} (proper : accepts 0 = false) {a : Cursor} (b : Cursor)
    (first : ¬ begins accepts a.rest) : popBoth accepts a b = (a, b) :=
  if_neg (by rw [front_eq proper a]; exact first)

theorem alnum_cases {text : Bytes} (more : begins isAlnum text) : begins isDigit text ∨ begins isAlpha text := by
  obtain ⟨c, rest, rfl, either⟩ := begins_iff.mp more
  simpa only [begins, List.head?_cons, Option.any_some, isAlnum, Bool.or_eq_true] using either

/-- Where a segment is popped, the one that was marked before does not matter. -/
theorem compareNext_start {a b : Cursor} (first : begins isAlnum a.rest) :
    compareNext a b = compareNext (.start a.rest) (.start b.rest) := by
  rw [compareNext_eq, compareNext_eq]
  by_cases digit : begins isDigit a.rest
  · have restarted : popBoth isDigit (.start a.rest) (.start b.rest) = (a.pop isDigit, b.pop isDigit) :=
      popBoth_some (by decide) _ digit
    rw [popBoth_some (by decide) b digit, restarted]
  · have letter := (alnum_cases first).resolve_left digit
    have same : popBoth isDigit (.start a.rest) (.start b.rest) = (.start a.rest, .start b.rest) :=
      popBoth_none (by decide) _ digit
    have restarted : popBoth isAlpha (.start a.rest) (.start b.rest) = (a.pop isAlpha, b.pop isAlpha) :=
      popBoth_some (by decide) _ letter
    rw [popBoth_none (by decide) b digit, popBoth_some (by decide) b letter, same, restarted]

/-- A number that no letters follow is the segment that is compared. -/
theorem compareNext_number {x y : Bytes} (first : begins isDigit x) (alone : ¬ begins isAlpha (x.dropWhile isDigit)) :
    compareNext (.start x) (.start y) =
      if begins isDigit y then
        passOf (compareNumbers (x.takeWhile isDigit) (y.takeWhile isDigit)) (x.dropWhile isDigit) (y.dropWhile isDigit)
      else .returns 1 := by
  have digits : popBoth isDigit (.start x) (.start y) = ((Cursor.start x).pop isDigit, (Cursor.start y).pop isDigit) :=
    popBoth_some (by decide) _ first
  rw [compareNext_eq, digits, popBoth_none (by decide) _ alone]
  refine (comparePopped_number (begins_takeWhile first) (digits_small x) (digits_small y)).trans ?_
  by_cases second : begins isDigit y
  · rw [if_pos second, if_neg fun none => takeWhile_nil_iff.mp none second]
    rfl
  · rw [if_neg second, if_pos (takeWhile_nil_iff.mpr second)]

private theorem compareNext_letters {x y : Bytes} (first : begins isAlpha x) : compareNext (.start x) (.start y) =
    if begins isAlpha y then
      passOf (compare (x.takeWhile isAlpha) (y.takeWhile isAlpha)) (x.dropWhile isAlpha) (y.dropWhile isAlpha)
    else .returns (-1) := by
  have other : ¬ begins isDigit x := fun digit => digit_not_alpha digit first
  have digits : popBoth isDigit (.start x) (.start y) = (.start x, .start y) := popBoth_none (by decide) _ other
  rw [compareNext_eq, digits, popBoth_some (by decide) _ first]
  refine (comparePopped_letters (begins_takeWhile first) (letters_small x) (letters_small y)).trans ?_
  by_cases second : begins isAlpha y
  · rw [if_pos second, if_neg fun none => takeWhile_nil_iff.mp none second]
    rfl
  · rw [if_neg second, if_pos (takeWhile_nil_iff.mpr second)]

/-- A number that letters follow at once is not looked at. -/
theorem compareNext_skips {x y : Bytes} (first : begins isDigit x) (followed : begins isAlpha (x.dropWhile isDigit)) :
    compareNext (.start x) (.start y) = compareNext (.start (x.dropWhile isDigit)) (.start (y.dropWhile isDigit)) := by
  have other : ¬ begins isDigit (x.dropWhile isDigit) := fun digit => digit_not_alpha digit followed
  have digits : popBoth isDigit (.start x) (.start y) = ((Cursor.start x).pop isDigit, (Cursor.start y).pop isDigit) :=
    popBoth_some (by decide) _ first
  have none : popBoth isDigit (.start (x.dropWhile isDigit)) (.start (y.dropWhile isDigit)) =
      (.start (x.dropWhile isDigit), .start (y.dropWhile isDigit)) := popBoth_none (by decide) _ other
  rw [compareNext_eq, digits, popBoth_some (by decide) _ followed, compareNext_eq, none,
    popBoth_some (by decide) _ followed]
  rfl

theorem alnum_not_tilde {text : Bytes} (more : begins isAlnum text) : ¬ begins isTilde text := by
  obtain ⟨c, rest, rfl, either⟩ := begins_iff.mp more
  intro tilded
  simp only [begins, List.head?_cons, Option.any_some, isTilde, beq_iff_eq] at tilded
  subst tilded
  exact absurd either (by decide)

/-- Without tildes in front, a pass is about the segments that follow the separators. -/
theorem comparePass_segments {a b : Cursor} (left : begins isAlnum (trim a.rest)) (right : ¬ begins isTilde (trim b.rest)) :
    comparePass a b = compareNext (.start (trim a.rest)) (.start (trim b.rest)) := by
  have first : isTilde (a.advance isSeparator).front = begins isTilde (trim a.rest) := front_eq (by decide) _
  have second : isTilde (b.advance isSeparator).front = begins isTilde (trim b.rest) := front_eq (by decide) _
  rw [Bool.eq_false_iff.mpr (alnum_not_tilde left), isTilde] at first
  rw [Bool.eq_false_iff.mpr right, isTilde] at second
  simp only [comparePass, first, second, Bool.false_and, Bool.false_eq_true, if_false]
  exact compareNext_start left

private theorem comparePass_leftTilde {a b : Cursor} (left : begins isTilde (trim a.rest)) (right : ¬ begins isTilde (trim b.rest)) :
    comparePass a b = .returns (-1) := by
  have first : isTilde (a.advance isSeparator).front = begins isTilde (trim a.rest) := front_eq (by decide) _
  have second : isTilde (b.advance isSeparator).front = begins isTilde (trim b.rest) := front_eq (by decide) _
  rw [left, isTilde] at first
  rw [Bool.eq_false_iff.mpr right, isTilde] at second
  simp only [comparePass, first, second, Bool.and_false, Bool.false_eq_true, if_false, if_true]

private theorem comparePass_rightTilde {a b : Cursor} (left : ¬ begins isTilde (trim a.rest)) (right : begins isTilde (trim b.rest)) :
    comparePass a b = .returns 1 := by
  have first : isTilde (a.advance isSeparator).front = begins isTilde (trim a.rest) := front_eq (by decide) _
  have second : isTilde (b.advance isSeparator).front = begins isTilde (trim b.rest) := front_eq (by decide) _
  rw [Bool.eq_false_iff.mpr left, isTilde] at first
  rw [right, isTilde] at second
  simp only [comparePass, first, second, Bool.false_and, Bool.false_eq_true, if_false, if_true]

/-- After a tilde in both texts, the loop ends with one of them, or a segment is popped. -/
theorem comparePass_tildes {a b : Cursor} {x y : Bytes} (left : trim a.rest = tilde :: x) (right : trim b.rest = tilde :: y) :
    ∃ c d : Cursor, c.rest = x ∧ d.rest = y ∧
      comparePass a b = if x = [] ∨ y = [] then .breaks c d else compareNext c d := by
  have shown : ∀ (e : Cursor) (z : Bytes), trim e.rest = tilde :: z →
      (e.advance isSeparator).front = tilde ∧ (e.advance isSeparator).increment.rest = z := by
    intro e z front
    rw [Cursor.increment_rest, Cursor.front, Cursor.advance_rest, show e.rest.dropWhile isSeparator = tilde :: z from front]
    exact ⟨rfl, rfl⟩
  obtain ⟨first, leftRest⟩ := shown a x left
  obtain ⟨second, rightRest⟩ := shown b y right
  refine ⟨(a.advance isSeparator).increment, (b.advance isSeparator).increment, leftRest, rightRest, ?_⟩
  simp only [comparePass, first, second, beq_self_eq_true, Bool.and_self, if_true, Cursor.atEnd, leftRest, rightRest,
    Bool.or_eq_true, List.isEmpty_iff]

/-- What the loop answers after a pass. -/
def afterPass : Pass → Option Int
  | .returns result => some result
  | .unset => none
  | .breaks a b => some (compareLeft a b)
  | .continues a b => compareLoop a b

theorem compareLoop_over {a b : Cursor} (exhausted : a.rest = [] ∨ b.rest = []) :
    compareLoop a b = some (compareLeft a b) := by
  rw [compareLoop, dif_pos exhausted]

theorem compareLoop_pass {a b : Cursor} (left : a.rest ≠ []) (right : b.rest ≠ []) :
    compareLoop a b = afterPass (comparePass a b) := by
  rw [compareLoop, dif_neg (not_or.mpr ⟨left, right⟩)]
  split <;> simp_all [afterPass]

theorem ne_nil_of_begins {accepts : UInt8 → Bool} {text : Bytes} (first : begins accepts (trim text)) : text ≠ [] := by
  rintro rfl
  cases first

theorem trim_of_begins {accepts : UInt8 → Bool} {text : Bytes} (first : begins accepts text)
    (proper : ∀ c, accepts c → isSeparator c = false) : trim text = text := by
  obtain ⟨c, rest, rfl, accepted⟩ := begins_iff.mp first
  rw [trim, List.dropWhile_cons, proper c accepted]
  rfl

theorem next_of_number {text : Bytes} (first : begins isDigit (trim text)) :
    next text = (.number ((trim text).takeWhile isDigit), afterNumber text) := by
  obtain ⟨c, rest, shape, digit⟩ := begins_iff.mp first
  rw [next_number shape digit, afterNumber, shape]

theorem next_of_letters {text : Bytes} (first : begins isAlpha (trim text)) :
    next text = (.letters ((trim text).takeWhile isAlpha), afterLetters text) := by
  obtain ⟨c, rest, shape, letter⟩ := begins_iff.mp first
  rw [next_letters shape letter, afterLetters, shape]

theorem next_of_tilde {text : Bytes} (first : begins isTilde (trim text)) : (next text).1 = .tilde := by
  obtain ⟨c, rest, shape, same⟩ := begins_iff.mp first
  rw [isTilde, beq_iff_eq] at same
  rw [next_tilde (same ▸ shape)]

/-- A text begins with a tilde, a number or letters, or has nothing left but separators. -/
theorem front_cases (text : Bytes) : begins isTilde (trim text) ∨ begins isDigit (trim text) ∨
    begins isAlpha (trim text) ∨ trim text = [] := by
  cases shape : trim text with
  | nil => exact .inr (.inr (.inr rfl))
  | cons c rest =>
    have proper := trim_front shape
    simp only [isSeparator, Bool.not_eq_false', Bool.or_eq_true] at proper
    rcases proper with (digit | letter) | same
    · exact .inr (.inl digit)
    · exact .inr (.inr (.inl letter))
    · exact .inl same

/-- Where the first segments differ, they decide. -/
theorem rpmvercmp_of_front {x y : Bytes} {order : Ordering} (front : Segment.compare (next x).1 (next y).1 = order)
    (decided : order ≠ .eq) : rpmvercmp x y = order := by
  rw [rpmvercmp_step, front]
  cases order
  · rfl
  · exact absurd rfl decided
  · rfl

theorem digit_alnum {text : Bytes} (first : begins isDigit text) : begins isAlnum text := by
  obtain ⟨c, rest, rfl, digit⟩ := begins_iff.mp first
  simp only [begins, List.head?_cons, Option.any_some, isAlnum, digit, Bool.true_or]

theorem letter_alnum {text : Bytes} (first : begins isAlpha text) : begins isAlnum text := by
  obtain ⟨c, rest, rfl, letter⟩ := begins_iff.mp first
  simp only [begins, List.head?_cons, Option.any_some, isAlnum, letter, Bool.or_true]

theorem alnum_proper {c : UInt8} (either : isAlnum c) : isSeparator c = false := by
  rw [isSeparator, show (isDigit c || isAlpha c) = true from either]
  rfl

private theorem tilde_proper {c : UInt8} (same : isTilde c) : isSeparator c = false := by
  rw [isSeparator, show (c == tilde) = true from same, Bool.or_true]
  rfl

/-- Once a number has been skipped in both texts, the loop goes on as from the letters. -/
theorem compareLoop_skips {a b : Cursor} (left : begins isDigit (trim a.rest)) (right : begins isDigit (trim b.rest))
    (first : begins isAlpha (afterNumber a.rest)) (second : begins isAlpha (afterNumber b.rest)) :
    compareLoop a b = compareLoop (.start (afterNumber a.rest)) (.start (afterNumber b.rest)) := by
  have leftSame := trim_of_begins (letter_alnum first) fun c => alnum_proper
  have rightSame := trim_of_begins (letter_alnum second) fun c => alnum_proper
  have letters : comparePass (.start (afterNumber a.rest)) (.start (afterNumber b.rest)) =
      compareNext (.start (trim (afterNumber a.rest))) (.start (trim (afterNumber b.rest))) :=
    comparePass_segments (leftSame.symm ▸ letter_alnum first) (rightSame.symm ▸ alnum_not_tilde (letter_alnum second))
  have later : compareLoop (.start (afterNumber a.rest)) (.start (afterNumber b.rest)) =
      afterPass (comparePass (.start (afterNumber a.rest)) (.start (afterNumber b.rest))) :=
    compareLoop_pass (ne_nil_of_begins (leftSame.symm ▸ first)) (ne_nil_of_begins (rightSame.symm ▸ second))
  rw [compareLoop_pass (ne_nil_of_begins left) (ne_nil_of_begins right),
    comparePass_segments (digit_alnum left) (alnum_not_tilde (digit_alnum right)), compareNext_skips left first, later,
    letters, leftSame, rightSame]
  rfl

/-- A pass that compares the segments in front answers what rpm does, if what follows does. -/
theorem compareLoop_passOf {a b : Cursor} {x y : Bytes} {order : Ordering} (left : a.rest ≠ []) (right : b.rest ≠ [])
    (passed : comparePass a b = passOf order x y)
    (onward : order = .eq → ∀ c d : Cursor, c.rest = x → d.rest = y → compareLoop c d = some (answerOf (rpmvercmp x y)))
    (rpm : rpmvercmp a.rest b.rest = order.then (rpmvercmp x y)) :
    compareLoop a b = some (answerOf (rpmvercmp a.rest b.rest)) := by
  rw [compareLoop_pass left right, passed, rpm, passOf]
  cases order
  · rfl
  · exact onward rfl ⟨some [], x⟩ ⟨some [], y⟩ rfl rfl
  · rfl

/-- Once a tilde has been skipped in both texts, the loop goes on as from what is behind them. -/
theorem compareLoop_tildes {a b : Cursor} {x y : Bytes} (left : trim a.rest = tilde :: x) (right : trim b.rest = tilde :: y)
    (onward : Onward x y) : ∃ c d : Cursor, c.rest = x ∧ d.rest = y ∧ compareLoop a b = compareLoop c d := by
  have leftTilde : begins isTilde (trim a.rest) := by rw [left]; rfl
  have rightTilde : begins isTilde (trim b.rest) := by rw [right]; rfl
  obtain ⟨c, d, leftRest, rightRest, passed⟩ := comparePass_tildes left right
  refine ⟨c, d, leftRest, rightRest, ?_⟩
  rw [compareLoop_pass (ne_nil_of_begins leftTilde) (ne_nil_of_begins rightTilde), passed]
  by_cases exhausted : x = [] ∨ y = []
  · rw [if_pos exhausted, afterPass, compareLoop_over (by rwa [leftRest, rightRest])]
  · have leftMore : c.rest ≠ [] := fun none => exhausted (.inl (leftRest.symm.trans none))
    have rightMore : d.rest ≠ [] := fun none => exhausted (.inr (rightRest.symm.trans none))
    rw [if_neg exhausted, compareLoop_pass leftMore rightMore]
    subst leftRest rightRest
    rcases onward with none | none | ⟨first, second⟩ | ⟨digit, alone, tilded⟩
    · exact absurd none leftMore
    · exact absurd none rightMore
    · have leftSame := trim_of_begins first fun c => alnum_proper
      have rightSame := trim_of_begins second fun c => alnum_proper
      rw [comparePass_segments (leftSame.symm ▸ first) (rightSame.symm ▸ alnum_not_tilde second), leftSame, rightSame,
        compareNext_start first]
    · have leftSame := trim_of_begins (digit_alnum digit) fun c => alnum_proper
      have rightSame := trim_of_begins tilded fun c => tilde_proper
      have notDigit : ¬ begins isDigit d.rest := fun numeric => alnum_not_tilde (digit_alnum numeric) tilded
      have plain : ¬ begins isTilde (trim c.rest) := leftSame.symm ▸ alnum_not_tilde (digit_alnum digit)
      rw [afterNumber, leftSame] at alone
      rw [comparePass_rightTilde plain (rightSame.symm ▸ tilded),
        compareNext_start (digit_alnum digit), compareNext_number digit alone, if_neg notDigit]

theorem compareLoop_answers {x y : Bytes} (regular : WellRead x y) :
    ∀ a b : Cursor, a.rest = x → b.rest = y → compareLoop a b = some (answerOf (rpmvercmp x y)) := by
  induction regular with
  | ended =>
    intro a b left right
    rw [compareLoop_over (.inl left), compareLeft, left, right, rpmvercmp_self]
    rfl
  | @leftEnded y more =>
    intro a b left right
    have older : rpmvercmp [] y = .lt := by
      rcases alnum_cases more with digit | letter
      · exact rpmvercmp_of_front (by rw [next_of_number digit]; rfl) (by decide)
      · exact rpmvercmp_of_front (by rw [next_of_letters letter]; rfl) (by decide)
    have shorter := List.length_pos_iff.mpr (ne_nil_of_begins more)
    rw [compareLoop_over (.inl left), compareLeft, left, right, older, List.length_nil, if_neg (Nat.not_lt_zero _), if_pos shorter]
    rfl
  | @rightEnded x more =>
    intro a b left right
    have newer : rpmvercmp x [] = .gt := by
      rcases alnum_cases more with digit | letter
      · exact rpmvercmp_of_front (by rw [next_of_number digit]; rfl) (by decide)
      · exact rpmvercmp_of_front (by rw [next_of_letters letter]; rfl) (by decide)
    have longer := List.length_pos_iff.mpr (ne_nil_of_begins more)
    rw [compareLoop_over (.inr right), compareLeft, left, right, newer, List.length_nil, if_pos longer]
    rfl
  | @leftTilde x y more left right =>
    rintro a b rfl rfl
    have older : rpmvercmp a.rest b.rest = .lt := by
      rcases front_cases b.rest with tilded | digit | letter | ended
      · exact absurd tilded right
      · exact rpmvercmp_of_front (by rw [next_of_tilde left, next_of_number digit]; rfl) (by decide)
      · exact rpmvercmp_of_front (by rw [next_of_tilde left, next_of_letters letter]; rfl) (by decide)
      · exact rpmvercmp_of_front (by rw [next_of_tilde left, next_trimmed ended]; rfl) (by decide)
    rw [compareLoop_pass (ne_nil_of_begins left) more, comparePass_leftTilde left right, older]
    rfl
  | @rightTilde x y more left right =>
    rintro a b rfl rfl
    have newer : rpmvercmp a.rest b.rest = .gt := by
      rcases front_cases a.rest with tilded | digit | letter | ended
      · exact absurd tilded left
      · exact rpmvercmp_of_front (by rw [next_of_tilde right, next_of_number digit]; rfl) (by decide)
      · exact rpmvercmp_of_front (by rw [next_of_tilde right, next_of_letters letter]; rfl) (by decide)
      · exact rpmvercmp_of_front (by rw [next_of_tilde right, next_trimmed ended]; rfl) (by decide)
    rw [compareLoop_pass more (ne_nil_of_begins right), comparePass_rightTilde left right, newer]
    rfl
  | @tildes x y x' y' left right onward rest follows =>
    rintro a b rfl rfl
    have rpm : rpmvercmp a.rest b.rest = rpmvercmp x' y' := by
      rw [rpmvercmp_step, next_tilde left, next_tilde right]
      rfl
    obtain ⟨c, d, leftRest, rightRest, onwards⟩ := compareLoop_tildes left right onward
    rw [onwards, rpm]
    exact follows c d leftRest rightRest
  | @numberOnly x y more left right plain alone =>
    rintro a b rfl rfl
    have newer : rpmvercmp a.rest b.rest = .gt := by
      rcases front_cases b.rest with tilded | digit | letter | ended
      · exact absurd tilded plain
      · exact absurd digit right
      · exact rpmvercmp_of_front (by rw [next_of_number left, next_of_letters letter]; rfl) (by decide)
      · exact rpmvercmp_of_front (by rw [next_of_number left, next_trimmed ended]; rfl) (by decide)
    rw [compareLoop_pass (ne_nil_of_begins left) more, comparePass_segments (digit_alnum left) plain,
      compareNext_number left alone, if_neg right, newer]
    rfl
  | @numbers x y left right alone rest follows =>
    rintro a b rfl rfl
    have rpm : rpmvercmp a.rest b.rest =
        (frontNumbers a.rest b.rest).then (rpmvercmp (afterNumber a.rest) (afterNumber b.rest)) := by
      rw [rpmvercmp_step, next_of_number left, next_of_number right]
      rfl
    have segments := comparePass_segments (a := a) (b := b) (digit_alnum left) (alnum_not_tilde (digit_alnum right))
    by_cases first : begins isAlpha (afterNumber a.rest)
    · -- The numbers are the same, and both are skipped.
      obtain ⟨second, same⟩ := alone.resolve_left (not_not.mpr first)
      rw [compareLoop_skips left right first second, rpm, same, Ordering.eq_then]
      exact follows same _ _ rfl rfl
    · rw [compareNext_number left first, if_pos right] at segments
      exact compareLoop_passOf (ne_nil_of_begins left) (ne_nil_of_begins right) segments follows rpm
  | @lettersOnly x y left right =>
    rintro a b rfl rfl
    have older : rpmvercmp a.rest b.rest = .lt :=
      rpmvercmp_of_front (by rw [next_of_letters left, next_of_number right]; rfl) (by decide)
    rw [compareLoop_pass (ne_nil_of_begins left) (ne_nil_of_begins right),
      comparePass_segments (letter_alnum left) (alnum_not_tilde (digit_alnum right)), compareNext_letters left,
      if_neg (digit_not_alpha right), older]
    rfl
  | @letters x y left right rest follows =>
    rintro a b rfl rfl
    have rpm : rpmvercmp a.rest b.rest =
        (frontLetters a.rest b.rest).then (rpmvercmp (afterLetters a.rest) (afterLetters b.rest)) := by
      rw [rpmvercmp_step, next_of_letters left, next_of_letters right]
      rfl
    have segments := comparePass_segments (a := a) (b := b) (letter_alnum left) (alnum_not_tilde (letter_alnum right))
    rw [compareNext_letters left, if_pos right] at segments
    exact compareLoop_passOf (ne_nil_of_begins left) (ne_nil_of_begins right) segments follows rpm

/-- Versions of which any two are the same, or compared by the rules of rpm in every pass
up to the one that decides, are put into the order of rpm. -/
theorem compareVersions_consistent (versions : List Bytes)
    (regular : ∀ a ∈ versions, ∀ b ∈ versions, a = b ∨ WellRead a b) : ConsistentOrder compareVersions versions := by
  apply ConsistentOrder.of_rpm
  intro a left b right
  rw [compareVersions]
  split
  next same =>
    rw [same, rpmvercmp_self]
    rfl
  next different =>
    exact compareLoop_answers ((regular a left b right).resolve_left different) (.start a) (.start b) rfl rfl

/-- The versions 0.2 and 0.10. -/
theorem compareVersions_consistent_minor : ConsistentOrder compareVersions [[48, 46, 50], [48, 46, 49, 48]] := by
  apply compareVersions_consistent
  have upward : WellRead [48, 46, 50] [48, 46, 49, 48] :=
    .numbers (by decide) (by decide) (.inl (by decide)) fun _ =>
      .numbers (by decide) (by decide) (.inl (by decide)) fun same => absurd same (by decide)
  have downward : WellRead [48, 46, 49, 48] [48, 46, 50] :=
    .numbers (by decide) (by decide) (.inl (by decide)) fun _ =>
      .numbers (by decide) (by decide) (.inl (by decide)) fun same => absurd same (by decide)
  intro a left b right
  simp only [List.mem_cons, List.not_mem_nil, or_false] at left right
  rcases left with rfl | rfl <;> rcases right with rfl | rfl
  · exact .inl rfl
  · exact .inr upward
  · exact .inr downward
  · exact .inl rfl

/-- The release 1.0 is said to be older than its candidate 1.0~rc, 1a to be the same
version as 2a, and for ~~1 and ~~2 a segment is read whose start has not been set. -/
theorem compareVersions_inconsistent :
    ¬ ConsistentOrder compareVersions [[49, 46, 48], [49, 46, 48, 126, 114, 99]] ∧
    ¬ ConsistentOrder compareVersions [[49, 97], [50, 97]] ∧
    ¬ ConsistentOrder compareVersions [[126, 126, 49], [126, 126, 50]] := by
  refine ⟨fun ordered => ?_, fun ordered => ?_, fun ordered => ?_⟩
  · have agreed := ordered.rpm [49, 46, 48] (by decide) [49, 46, 48, 126, 114, 99] (by decide)
    exact absurd agreed (by decide +kernel)
  · have agreed := ordered.rpm [49, 97] (by decide) [50, 97] (by decide)
    exact absurd agreed (by decide +kernel)
  · have set := ordered.set [126, 126, 49] (by decide) [126, 126, 50] (by decide)
    exact absurd set (by decide +kernel)

end Slate
