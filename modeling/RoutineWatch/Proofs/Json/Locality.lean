import RoutineWatch.Proofs.Json.Brackets
import RoutineWatch.Proofs.Json.Spelling

/-!
# The reader stays inside brackets

What the reader makes of a text that closes the brackets it starts in, and where it stops, is
settled by this text.

- `Json.staysWithin`: by induction on the fuel, for values, items and members together.
- `Json.readFirst_bracketed`: an array at the beginning of a text is read the same, whatever
  comes after the bracket that closes it.
-/
namespace RoutineWatch.Json

/-- With so much fuel a reader stays within a text: what it makes of it does not depend on what
comes after, and it stops in it, before what closes so many brackets, or at a fault. -/
inductive Within {α : Type} (read : Nat → List Char → α × Option (List Char)) (need depth : Nat)
    (text : List Char) : Prop where
  | stopped (a : α) (same : ∀ fuel, need ≤ fuel → ∀ after, read fuel (text ++ after) = (a, none))
  | ended (a : α) {left : List Char} (short : left.length ≤ text.length)
      (closes : Closes depth left)
      (same : ∀ fuel, need ≤ fuel → ∀ after, read fuel (text ++ after) = (a, some (left ++ after)))

section
variable {α β : Type} {read : Nat → List Char → α × Option (List Char)} {need depth : Nat}
  {text : List Char}

/-- A reader may stop at once. -/
theorem within_stopped (a : α) (same : ∀ fuel after, read (fuel + 1) (text ++ after) = (a, none)) :
    Within read (need + 1) depth text := by
  refine .stopped a ?_
  intro fuel enough after
  cases fuel with
  | zero => exact absurd enough (Nat.not_succ_le_zero need)
  | succ fuel => exact same fuel after

/-- A reader may leave what it does, with less fuel, to another one that starts later. -/
theorem Within.later {next : Nat → List Char → α × Option (List Char)} {left : List Char}
    (within : Within next need depth left) (short : left.length ≤ text.length)
    (step : ∀ fuel after, read (fuel + 1) (text ++ after) = next fuel (left ++ after)) :
    Within read (need + 1) depth text := by
  cases within with
  | stopped a same =>
    refine .stopped a ?_
    intro fuel enough after
    cases fuel with
    | zero => exact absurd enough (Nat.not_succ_le_zero need)
    | succ fuel => exact (step fuel after).trans (same fuel (Nat.le_of_succ_le_succ enough) after)
  | ended a shorter closes same =>
    refine .ended a (Nat.le_trans shorter short) closes ?_
    intro fuel enough after
    cases fuel with
    | zero => exact absurd enough (Nat.not_succ_le_zero need)
    | succ fuel => exact (step fuel after).trans (same fuel (Nat.le_of_succ_le_succ enough) after)

theorem Within.mono (within : Within read need depth text) {more : Nat} (enough : need ≤ more) :
    Within read more depth text := by
  cases within with
  | stopped a same => exact .stopped a fun fuel fuelled => same fuel (Nat.le_trans enough fuelled)
  | ended a short closes same =>
    exact .ended a short closes fun fuel fuelled => same fuel (Nat.le_trans enough fuelled)

/-- What is read, and then, unless that was a fault, what comes next. -/
def andThen (read : Nat → List Char → α × Option (List Char)) (stop : α → β)
    (next : α → Nat → List Char → β × Option (List Char)) (fuel : Nat) (text : List Char) :
    β × Option (List Char) :=
  match read fuel text with
  | (a, none) => (stop a, none)
  | (a, some rest) => next a fuel rest

theorem Within.andThen {stop : α → β} {next : α → Nat → List Char → β × Option (List Char)}
    {deep : Nat} (within : Within read need depth text)
    (others : ∀ a left, Closes depth left → left.length ≤ text.length →
      Within (next a) need deep left) : Within (andThen read stop next) need deep text := by
  cases within with
  | stopped a same =>
    refine .stopped (stop a) ?_
    intro fuel enough after
    rw [Json.andThen, same fuel enough]
  | @ended a left short closes same =>
    cases others a left closes short with
    | stopped b same' =>
      refine .stopped b ?_
      intro fuel enough after
      rw [Json.andThen, same fuel enough]
      exact same' fuel enough after
    | ended b short' closes' same' =>
      refine .ended b (Nat.le_trans short' short) closes' ?_
      intro fuel enough after
      rw [Json.andThen, same fuel enough]
      exact same' fuel enough after

end

/-! Values from one token -/

/-- The document of a token. -/
def tokenDocument {α : Type} (make : α → Document) :
    Option (α × List Char) → Document × Option (List Char)
  | some (a, rest) => (make a, some rest)
  | none => (.fault, none)

theorem Settled.document {α : Type} {read : List Char → Option (α × List Char)} {depth : Nat}
    {text : List Char} (settled : Settled read depth text) (make : α → Document) :
    Within (fun _ t => tokenDocument make (read t)) 0 depth text := by
  cases settled with
  | refused none =>
    refine .stopped .fault ?_
    intro _ _ after
    rw [none]
    rfl
  | taken a short closes same =>
    refine .ended (make a) short closes ?_
    intro _ _ after
    rw [same]
    rfl

theorem numberDocument_eq (read : Option (Numeral × List Char)) :
    numberDocument read = tokenDocument (fun n => .number n.value?) read := by
  cases read <;> rfl

theorem readWord_eq_some_iff {word text rest : List Char} :
    readWord word text = some ((), rest) ↔ text = word ++ rest := by
  induction word generalizing text with
  | nil => simp [readWord]
  | cons w word ih =>
    cases text with
    | nil => simp [readWord]
    | cons c text =>
      rw [readWord]
      by_cases same : c = w
      · simp [same, ih]
      · simp [same]

/-- The values that are words. -/
def words : List (List Char) :=
  [['n', 'u', 'l', 'l'], ['t', 'r', 'u', 'e'], ['f', 'a', 'l', 's', 'e']]

/-- A value that is no word and starts with no opening mark is a number, or none. -/
theorem readValue_number {c : Char} {text : List Char}
    (other : c ≠ '"' ∧ c ≠ '[' ∧ c ≠ '\x7b') (noWord : ∀ w ∈ words, ¬ w <+: c :: text)
    (fuel : Nat) :
    readValue (fuel + 1) (c :: text) =
      if c = '-' then tokenDocument (fun n => .number n.value?) (readNumeral true text)
      else tokenDocument (fun n => .number n.value?) (readNumeral false (c :: text)) := by
  have spelled : ∀ w ∈ words, ∀ rest, c :: text ≠ w ++ rest := by
    intro w member rest same
    exact noWord w member ⟨rest, same.symm⟩
  rw [← numberDocument_eq, ← numberDocument_eq]
  by_cases minus : c = '-'
  · subst minus
    rw [if_pos rfl, readValue]
  · rw [if_neg minus, readValue]
    · exact spelled ['n', 'u', 'l', 'l'] (by decide)
    · exact spelled ['t', 'r', 'u', 'e'] (by decide)
    · exact spelled ['f', 'a', 'l', 's', 'e'] (by decide)
    · intro _ same
      exact other.1 (List.cons.inj same).1
    · intro _ same
      exact minus (List.cons.inj same).1
    · intro _ same
      exact other.2.1 (List.cons.inj same).1
    · intro _ same
      exact other.2.2 (List.cons.inj same).1

/-- A value that starts as a word does is that word, or none. -/
theorem readValue_word {c : Char} {word : List Char} {d : Document} (fuel : Nat)
    (own : ∀ w ∈ words, w.head? = some c → w = c :: word)
    (letter : c ∉ marks ∧ c ≠ '-' ∧ isDigit c = false)
    (known : ∀ rest, readValue (fuel + 1) (c :: (word ++ rest)) = (d, some rest))
    (text : List Char) :
    readValue (fuel + 1) (c :: text) = tokenDocument (fun _ => d) (readWord word text) := by
  obtain ⟨plain, minus, digit⟩ := letter
  cases read : readWord word text with
  | some r =>
    rw [readWord_eq_some_iff.1 read, known]
    rfl
  | none =>
    have noWord : ∀ w ∈ words, ¬ w <+: c :: text := by
      intro w member starts
      obtain ⟨rest, same⟩ := starts
      have first : w.head? = some c := by
        cases w with
        | nil => exact absurd member (by decide)
        | cons b w => exact congrArg some (List.cons.inj same).1
      rw [own w member first, List.cons_append] at same
      rw [readWord_eq_some_iff.2 (List.cons.inj same).2.symm] at read
      cases read
    have mark : c ≠ '"' ∧ c ≠ '[' ∧ c ≠ '\x7b' := by
      refine ⟨?_, ?_, ?_⟩ <;> intro same <;> subst same <;> exact plain (by decide)
    have zero : c ≠ '0' := by
      intro same
      subst same
      cases digit
    rw [readValue_number mark noWord, if_neg minus, readNumeral_digit zero, digit]
    rfl

section
variable {depth : Nat} {c : Char} {text : List Char}

theorem Closes.wordValue (closes : Closes (depth + 1) (c :: text)) (word : List Char)
    (d : Document) (own : ∀ w ∈ words, w.head? = some c → w = c :: word)
    (letter : c ∉ marks ∧ c ≠ '-' ∧ isDigit c = false) (letters : Unmarked word)
    (known : ∀ fuel rest, readValue (fuel + 1) (c :: (word ++ rest)) = (d, some rest)) :
    Within (fun fuel t => readValue fuel (c :: t)) 1 (depth + 1) text := by
  have read := ((closes.of_plain letter.1).word letters).document fun _ => d
  refine read.later (Nat.le_refl _) ?_
  intro fuel after
  exact readValue_word fuel own letter (known fuel) _

/-- A value that starts with no mark, and not as a word does. -/
theorem Closes.numberValue (closes : Closes (depth + 1) (c :: text)) (plain : c ∉ marks)
    (noWord : ∀ w ∈ words, w.head? ≠ some c) :
    Within (fun fuel t => readValue fuel (c :: t)) 1 (depth + 1) text := by
  have mark : c ≠ '"' ∧ c ≠ '[' ∧ c ≠ '\x7b' := by
    refine ⟨?_, ?_, ?_⟩ <;> intro same <;> subst same <;> exact plain (by decide)
  have noWord : ∀ t, ∀ w ∈ words, ¬ w <+: c :: t := by
    intro t w member starts
    obtain ⟨rest, same⟩ := starts
    cases w with
    | nil => exact absurd member (by decide)
    | cons b w => exact noWord _ member (congrArg some (List.cons.inj same).1)
  by_cases minus : c = '-'
  · subst minus
    have inside := closes.of_plain plain
    cases text with
    | nil => exact absurd rfl inside.ne_nil
    | cons d text =>
      have numeral : Settled (readNumeral true) (depth + 1) (d :: text) :=
        (inside.numeral true).after [d] fun _ => rfl
      refine (numeral.document fun n => .number n.value?).later (Nat.le_refl _) ?_
      intro fuel after
      exact (readValue_number mark (noWord _) fuel).trans (if_pos rfl)
  · refine ((closes.numeral false).document fun n => .number n.value?).later (Nat.le_refl _) ?_
    intro fuel after
    exact (readValue_number mark (noWord _) fuel).trans (if_neg minus)

/-- A value that starts with no mark. -/
theorem Closes.plainValue (closes : Closes (depth + 1) (c :: text)) (plain : c ∉ marks) :
    Within (fun fuel t => readValue fuel (c :: t)) 1 (depth + 1) text := by
  by_cases n : c = 'n'
  · subst n
    exact closes.wordValue ['u', 'l', 'l'] .null (by decide) (by decide) (by decide)
      fun _ _ => by simp [readValue]
  by_cases t : c = 't'
  · subst t
    exact closes.wordValue ['r', 'u', 'e'] (.bool true) (by decide) (by decide) (by decide)
      fun _ _ => by simp [readValue]
  by_cases f : c = 'f'
  · subst f
    exact closes.wordValue ['a', 'l', 's', 'e'] (.bool false) (by decide) (by decide) (by decide)
      fun _ _ => by simp [readValue]
  apply closes.numberValue plain
  simp [words, Ne.symm n, Ne.symm t, Ne.symm f]

theorem Closes.stringValue (closes : Closes (depth + 1) ('"' :: text)) :
    Within (fun fuel t => readValue fuel ('"' :: t)) 1 (depth + 1) text := by
  have read := closes.pieces.document fun pieces => .string ((joinPieces pieces).map String.ofList)
  refine read.later (Nat.le_refl _) ?_
  intro fuel after
  rw [readValue]
  cases readPieces (text ++ after) <;> rfl

/-- No value starts with a closing bracket. -/
theorem readValue_closing (bracket : c = ']' ∨ c = '\x7d') (fuel : Nat) (text : List Char) :
    readValue (fuel + 1) (c :: text) = (.fault, none) := by
  have noWord : ∀ w ∈ words, ¬ w <+: c :: text := by
    rcases bracket with rfl | rfl <;> simp [words]
  rw [readValue_number (by rcases bracket with rfl | rfl <;> decide) noWord]
  rcases bracket with rfl | rfl <;> rfl

end

/-! Items and members -/

/-- Where an item was read there are others after a comma, or the bracket that ends them. -/
def goOn {α : Type} (close : Char) (others : Nat → List Char → List α × Option (List Char))
    (item : α) (fuel : Nat) (text : List Char) : List α × Option (List Char) :=
  match skipBlanks text with
  | [] => ([item], none)
  | c :: rest =>
    if c = close then ([item], some rest)
    else if c = ',' then
      (item :: (others fuel (skipBlanks rest)).1, (others fuel (skipBlanks rest)).2)
    else ([item], none)

theorem readItems_eq (fuel : Nat) (text : List Char) :
    readItems (fuel + 1) text =
      andThen readValue (fun item => [item]) (goOn ']' readItems) fuel text := by
  rw [readItems, andThen]
  rcases readValue fuel text with ⟨item, _ | rest⟩
  · rfl
  · dsimp only [goOn]
    cases skipBlanks rest with
    | nil => rfl
    | cons c rest =>
      by_cases close : c = ']'
      · subst close
        rfl
      · by_cases comma : c = ','
        · subst comma
          rfl
        · simp [close, comma]

/-- Between the bracket that opens a value and the one that closes it there may be nothing. -/
def bracketed {α : Type} (close : Char) (inner : Nat → List Char → List α × Option (List Char))
    (make : List α → Bool → Document) (fuel : Nat) (text : List Char) :
    Document × Option (List Char) :=
  if (skipBlanks text).head? = some close then (make [] true, some (skipBlanks text).tail)
  else
    (make (inner fuel (skipBlanks text)).1 (inner fuel (skipBlanks text)).2.isSome,
      (inner fuel (skipBlanks text)).2)

theorem readValue_array (fuel : Nat) (text : List Char) :
    readValue (fuel + 1) ('[' :: text) = bracketed ']' readItems .array fuel text := by
  rw [readValue, bracketed]
  cases skipBlanks text with
  | nil => rfl
  | cons c rest =>
    by_cases close : c = ']'
    · subst close
      rfl
    · simp [close]

theorem readValue_object (fuel : Nat) (text : List Char) :
    readValue (fuel + 1) ('\x7b' :: text) = bracketed '\x7d' readMembers .object fuel text := by
  rw [readValue, bracketed]
  cases skipBlanks text with
  | nil => rfl
  | cons c rest =>
    by_cases close : c = '\x7d'
    · subst close
      rfl
    · simp [close]

/-- What is read after the key of a member. -/
def afterKey (key : Option String) (fuel : Nat) (text : List Char) :
    List (Option String × Document) × Option (List Char) :=
  if (skipBlanks text).head? = some ':' then
    andThen readValue (fun item => [(key, item)]) (fun item => goOn '\x7d' readMembers (key, item))
      fuel (skipBlanks (skipBlanks text).tail)
  else ([(key, .fault)], none)

theorem readMembers_key (fuel : Nat) (text : List Char) :
    readMembers (fuel + 1) ('"' :: text) =
      match readPieces text with
      | none => ([], none)
      | some (pieces, rest) => afterKey ((joinPieces pieces).map String.ofList) fuel rest := by
  rw [readMembers]
  cases readPieces text with
  | none => rfl
  | some read =>
    obtain ⟨pieces, rest⟩ := read
    dsimp only [afterKey]
    cases skipBlanks rest with
    | nil => rfl
    | cons c rest =>
      by_cases colon : c = ':'
      · subst colon
        simp only [List.head?_cons, if_true, List.tail_cons, andThen]
        rcases readValue fuel (skipBlanks rest) with ⟨item, _ | rest⟩
        · rfl
        · dsimp only [goOn]
          cases skipBlanks rest with
          | nil => rfl
          | cons d rest =>
            by_cases close : d = '\x7d'
            · subst close
              rfl
            · by_cases comma : d = ','
              · subst comma
                rfl
              · simp [close, comma]
      · simp [colon]

section
variable {α : Type} {close : Char} (closing : close = ']' ∨ close = '\x7d')
  {inner : Nat → List Char → List α × Option (List Char)} {need depth : Nat} {text : List Char}
  (closes : Closes (depth + 1) text)
include closing closes

theorem within_goOn (item : α) (others : ∀ c rest, Closes (depth + 1) (c :: rest) →
      rest.length + 1 < text.length → Within (fun fuel t => inner fuel (c :: t)) need depth rest) :
    Within (goOn close inner item) need depth text := by
  obtain ⟨c, rest, kept, short, start⟩ := closes.token
  by_cases ends : c = close
  · subst ends
    refine .ended [item] (Nat.le_of_lt short) (kept.of_closing closing) ?_
    intro fuel _ after
    simp [goOn, start]
  · by_cases comma : c = ','
    · subst comma
      obtain ⟨d, rest', kept', short', start'⟩ := (kept.of_plain (by decide)).token
      cases others d rest' kept' (by omega) with
      | stopped items same =>
        refine .stopped (item :: items) ?_
        intro fuel enough after
        simp [goOn, start, ends, start', same fuel enough]
      | ended items short'' closes' same =>
        refine .ended (item :: items) (by omega) closes' ?_
        intro fuel enough after
        simp [goOn, start, ends, start', same fuel enough]
    · refine .stopped [item] ?_
      intro fuel _ after
      simp [goOn, start, ends, comma]

theorem within_bracketed (make : List α → Bool → Document)
    (items : ∀ c rest, Closes (depth + 1) (c :: rest) → rest.length < text.length →
      Within (fun fuel t => inner fuel (c :: t)) need depth rest) :
    Within (bracketed close inner make) need depth text := by
  obtain ⟨c, rest, kept, short, start⟩ := closes.token
  by_cases ends : c = close
  · subst ends
    refine .ended (make [] true) (Nat.le_of_lt short) (kept.of_closing closing) ?_
    intro fuel _ after
    simp [bracketed, start]
  · cases items c rest kept short with
    | stopped items same =>
      refine .stopped (make items false) ?_
      intro fuel enough after
      simp [bracketed, start, ends, same fuel enough]
    | ended items short' closes' same =>
      refine .ended (make items true) (by omega) closes' ?_
      intro fuel enough after
      simp [bracketed, start, ends, same fuel enough]

end

/-! All values -/

/-- In texts of this size items and members stay within the brackets around them. -/
structure StaysWithin (size : Nat) : Prop where
  items : ∀ {depth : Nat} {c : Char} {text : List Char}, Closes (depth + 1) (c :: text) →
    text.length < size →
    Within (fun fuel t => readItems fuel (c :: t)) (2 * text.length + 3) depth text
  members : ∀ {depth : Nat} {c : Char} {text : List Char}, Closes (depth + 1) (c :: text) →
    text.length < size →
    Within (fun fuel t => readMembers fuel (c :: t)) (2 * text.length + 3) depth text

section
variable {size : Nat} (stays : StaysWithin size) {depth : Nat} {c : Char} {text : List Char}
include stays

/-- An array after the bracket that opens it. -/
theorem StaysWithin.array (closes : Closes (depth + 1) text) (small : text.length ≤ size) :
    Within (fun fuel t => readValue fuel ('[' :: t)) (2 * text.length + 2) depth text := by
  have inside : Within (bracketed ']' readItems .array) (2 * text.length + 1) depth text := by
    apply within_bracketed (Or.inl rfl) closes
    intro d rest kept short
    exact (stays.items kept (by omega)).mono (by omega)
  exact inside.later (Nat.le_refl _) fun fuel _ => readValue_array fuel _

theorem StaysWithin.object (closes : Closes (depth + 1) text) (small : text.length ≤ size) :
    Within (fun fuel t => readValue fuel ('\x7b' :: t)) (2 * text.length + 2) depth text := by
  have inside : Within (bracketed '\x7d' readMembers .object) (2 * text.length + 1) depth text := by
    apply within_bracketed (Or.inr rfl) closes
    intro d rest kept short
    exact (stays.members kept (by omega)).mono (by omega)
  exact inside.later (Nat.le_refl _) fun fuel _ => readValue_object fuel _

theorem StaysWithin.value (closes : Closes (depth + 1) (c :: text))
    (small : text.length < size + 1) :
    Within (fun fuel t => readValue fuel (c :: t)) (2 * text.length + 2) (depth + 1) text := by
  have small : text.length ≤ size := Nat.le_of_lt_succ small
  by_cases plain : c ∈ marks
  · have kinds : c = '[' ∨ c = ']' ∨ c = '\x7b' ∨ c = '\x7d' ∨ c = '"' := by
      simpa [marks] using plain
    rcases kinds with rfl | rfl | rfl | rfl | rfl
    · exact stays.array (closes.of_opening (Or.inl rfl)) small
    · exact within_stopped .fault fun fuel _ => readValue_closing (Or.inl rfl) fuel _
    · exact stays.object (closes.of_opening (Or.inr rfl)) small
    · exact within_stopped .fault fun fuel _ => readValue_closing (Or.inr rfl) fuel _
    · exact closes.stringValue.mono (by omega)
  · exact (closes.plainValue plain).mono (by omega)

/-- One value, and what comes after it up to the closing bracket. -/
theorem StaysWithin.item {α : Type} {close : Char} (closing : close = ']' ∨ close = '\x7d')
    {inner : Nat → List Char → List α × Option (List Char)} (make : Document → α)
    (closes : Closes (depth + 1) (c :: text)) (small : text.length < size + 1)
    (others : ∀ d rest, Closes (depth + 1) (d :: rest) → rest.length < size →
      Within (fun fuel t => inner fuel (d :: t)) (2 * rest.length + 3) depth rest) :
    Within (andThen (fun fuel t => readValue fuel (c :: t)) (fun item => [make item])
      fun item => goOn close inner (make item)) (2 * text.length + 2) depth text := by
  apply (stays.value closes small).andThen
  intro item left inside short
  apply within_goOn closing inside
  intro d rest kept shorter
  exact (others d rest kept (by omega)).mono (by omega)

theorem StaysWithin.items_succ (closes : Closes (depth + 1) (c :: text))
    (small : text.length < size + 1) :
    Within (fun fuel t => readItems fuel (c :: t)) (2 * text.length + 3) depth text := by
  have inside := stays.item (Or.inl rfl) (fun item => item) closes small fun _ _ => stays.items
  exact inside.later (Nat.le_refl _) fun fuel _ => readItems_eq fuel _

theorem StaysWithin.members_succ (closes : Closes (depth + 1) (c :: text))
    (small : text.length < size + 1) :
    Within (fun fuel t => readMembers fuel (c :: t)) (2 * text.length + 3) depth text := by
  by_cases key : c = '"'
  · subst key
    cases closes.pieces with
    | refused none =>
      apply within_stopped []
      intro fuel after
      rw [readMembers_key, none]
    | taken pieces short inside same =>
      obtain ⟨d, rest, kept, short', start⟩ := inside.token
      by_cases colon : d = ':'
      · subst colon
        obtain ⟨e, rest', kept', short'', start'⟩ := (kept.of_plain (by decide)).token
        have member := stays.item (Or.inr rfl)
          (fun item => ((joinPieces pieces).map String.ofList, item)) kept' (by omega)
          fun _ _ => stays.members
        refine (member.mono (by omega)).later (by omega) ?_
        intro fuel after
        rw [readMembers_key, same]
        dsimp only [afterKey]
        rw [start, List.head?_cons, if_pos rfl, List.tail_cons, start']
        rfl
      · apply within_stopped [((joinPieces pieces).map String.ofList, .fault)]
        intro fuel after
        rw [readMembers_key, same]
        simp [afterKey, start, colon]
  · apply within_stopped []
    intro fuel after
    rw [readMembers]
    intro _ same
    exact key (List.cons.inj same).1

end

theorem staysWithin (size : Nat) : StaysWithin size := by
  induction size with
  | zero =>
    constructor <;>
      exact fun _ small => absurd small (Nat.not_lt_zero _)
  | succ size stays => exact ⟨stays.items_succ, stays.members_succ⟩

/-- A text that closes all brackets is at its end. -/
theorem Closes.eq_nil {text : List Char} (closes : Closes 0 text) : text = [] := by
  cases closes
  rfl

/-- An opening bracket, up to the one that closes it, whatever is between them. -/
def Bracketed (text : List Char) : Prop := ∃ inside, text = '[' :: inside ∧ Closes 1 inside

/-- An array at the beginning of a text is read the same, and is closed by the same bracket or
not at all, whatever blanks are before it and whatever comes after it. -/
theorem readFirst_bracketed {text : List Char} (bracketed : Bracketed text) :
    ∃ (d : Document) (closed : Bool), ∀ gap, AllBlank gap → ∀ after,
      readFirst (gap ++ (text ++ after)) = (d, if closed then some after else none) := by
  obtain ⟨inside, rfl, closes⟩ := bracketed
  have start : ∀ gap, AllBlank gap → ∀ after,
      skipBlanks (gap ++ '[' :: (inside ++ after)) = '[' :: (inside ++ after) := by
    intro gap blank after
    rw [skipBlanks_append blank, skipBlanks_cons (by decide)]
  have enough : ∀ gap after : List Char,
      2 * inside.length + 2 ≤ 2 * (gap ++ '[' :: (inside ++ after)).length + 2 := by
    intro gap after
    simp only [List.length_append, List.length_cons]
    omega
  cases (staysWithin inside.length).array closes (Nat.le_refl _) with
  | stopped d same =>
    refine ⟨d, false, ?_⟩
    intro gap blank after
    rw [List.cons_append, readFirst, start gap blank]
    exact same _ (enough gap after) after
  | ended d short within same =>
    refine ⟨d, true, ?_⟩
    intro gap blank after
    rw [List.cons_append, readFirst, start gap blank]
    have read := same _ (enough gap after) after
    rw [within.eq_nil] at read
    exact read

end RoutineWatch.Json
