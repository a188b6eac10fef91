import RoutineWatch.Proofs.Json.Spelling
import RoutineWatch.Proofs.Ordered.Map

/-!
# What is printed is read back

Both printers write texts of the grammar, so the reader finds the members of an object in the
order in which they were written; the value it makes of them lists them by key, the last of
several with one key counting.

- `Json.parse_compact`: a value on one line is read back.
- `Json.parseMembers_pretty`: the members of an indented object are read back.
- `Json.readFirst_compact`: a value on one line, with whatever follows it.

Only values nested deeper than the reader goes are excepted (`Json.height`), and numbers that
are no natural number of 64 bits (`Json.HasNaturals`).
-/
namespace RoutineWatch.Json

mutual

/-- Whether all numbers in a value are natural numbers of at most 64 bits. -/
def HasNaturals : Json → Prop
  | .number (.integer n) => 0 ≤ n ∧ n ≤ maxSignificand
  | .number (.real _) => False
  | .array items => ItemsHaveNaturals items
  | .object members => MembersHaveNaturals members
  | _ => True

/-- Whether all numbers in some values are natural numbers of at most 64 bits. -/
def ItemsHaveNaturals : List Json → Prop
  | [] => True
  | item :: items => item.HasNaturals ∧ ItemsHaveNaturals items

/-- Whether all numbers in the values of members are natural numbers of at most 64 bits. -/
def MembersHaveNaturals : List (String × Json) → Prop
  | [] => True
  | (_, value) :: members => value.HasNaturals ∧ MembersHaveNaturals members

end

mutual

/-- The document of a value's text. -/
def document : Json → Document
  | .null => .null
  | .bool value => .bool value
  | .number value => .number (some value)
  | .string value => .string (some value)
  | .array items => .array (itemDocuments items) true
  | .object members => .object (memberDocuments members) true

/-- The documents of the texts of values. -/
def itemDocuments : List Json → List Document
  | [] => []
  | item :: items => item.document :: itemDocuments items

/-- The documents of the texts of members. -/
def memberDocuments : List (String × Json) → List (Option String × Document)
  | [] => []
  | (key, value) :: members => (some key, value.document) :: memberDocuments members

end

/-! Printing -/

theorem allBlank_nil : AllBlank [] := fun _ member => absurd member List.not_mem_nil

theorem allBlank_space : AllBlank [' '] := by
  intro c member
  obtain rfl := List.mem_singleton.1 member
  decide

theorem allBlank_newline (indent : Nat) : AllBlank (newline indent) := by
  intro c member
  rcases List.mem_cons.1 member with rfl | member
  · decide
  · obtain rfl := List.eq_of_mem_replicate member
    decide

theorem spells_number {n : Int} (small : (Json.number (.integer n)).HasNaturals) :
    Spells (.number (some (.integer n))) (JsonNumber.integer n).render.toList := by
  rw [HasNaturals] at small
  obtain ⟨k, rfl⟩ := Int.eq_ofNat_of_zero_le small.1
  have written : (JsonNumber.integer k).render.toList = Nat.toDigits 10 k := Nat.toList_repr
  rw [written]
  exact .natural (by omega)

mutual

theorem spells_compactChars :
    ∀ v : Json, v.HasNaturals → Spells v.document (compactChars v)
  | .null, _ => .null
  | .bool true, _ => .yes
  | .bool false, _ => .no
  | .number (.integer _), small => spells_number small
  | .number (.real _), small => absurd small (by rw [HasNaturals]; exact id)
  | .string s, _ => .string s
  | .array [], _ => .emptyArray allBlank_nil
  | .array (item :: items), small => by
    rw [HasNaturals] at small
    exact .array (spellsItems_compactItems (item :: items) (List.cons_ne_nil _ _) small)
  | .object [], _ => .emptyObject allBlank_nil
  | .object (member :: members), small => by
    rw [HasNaturals] at small
    exact .object (spellsMembers_compactMembers (member :: members) (List.cons_ne_nil _ _) small)

theorem spellsItems_compactItems : ∀ items : List Json, items ≠ [] → ItemsHaveNaturals items →
    SpellsItems (itemDocuments items) (compactItems items)
  | [], filled, _ => absurd rfl filled
  | [item], _, small => by
    rw [ItemsHaveNaturals] at small
    have value := spells_compactChars item small.1
    simpa [itemDocuments, compactItems] using SpellsItems.last allBlank_nil value allBlank_nil
  | item :: next :: items, _, small => by
    rw [ItemsHaveNaturals] at small
    have value := spells_compactChars item small.1
    have others := spellsItems_compactItems (next :: items) (List.cons_ne_nil _ _) small.2
    simpa [itemDocuments, compactItems] using
      SpellsItems.more allBlank_nil value allBlank_nil others

theorem spellsMembers_compactMembers : ∀ members : List (String × Json), members ≠ [] →
    MembersHaveNaturals members → SpellsMembers (memberDocuments members) (compactMembers members)
  | [], filled, _ => absurd rfl filled
  | [(key, value)], _, small => by
    rw [MembersHaveNaturals] at small
    have spelled := spells_compactChars value small.1
    simpa [memberDocuments, compactMembers] using
      SpellsMembers.last key allBlank_nil allBlank_nil allBlank_nil spelled allBlank_nil
  | (key, value) :: next :: members, _, small => by
    rw [MembersHaveNaturals] at small
    have spelled := spells_compactChars value small.1
    have others := spellsMembers_compactMembers (next :: members) (List.cons_ne_nil _ _) small.2
    simpa [memberDocuments, compactMembers] using
      SpellsMembers.more key allBlank_nil allBlank_nil allBlank_nil spelled allBlank_nil others

end

mutual

theorem spells_prettyChars (width : Nat) : ∀ (indent : Nat) (v : Json), v.HasNaturals →
    Spells v.document (prettyChars width indent v)
  | _, .null, _ => .null
  | _, .bool true, _ => .yes
  | _, .bool false, _ => .no
  | _, .number (.integer _), small => spells_number small
  | _, .number (.real _), small => absurd small (by rw [HasNaturals]; exact id)
  | _, .string s, _ => .string s
  | _, .array [], _ => .emptyArray allBlank_nil
  | indent, .array (item :: items), small => by
    rw [HasNaturals] at small
    exact .array (spellsItems_prettyItems width (indent + width) indent (item :: items)
      (List.cons_ne_nil _ _) small)
  | _, .object [], _ => .emptyObject allBlank_nil
  | indent, .object (member :: members), small => by
    rw [HasNaturals] at small
    exact .object (spellsMembers_prettyMembers width (indent + width) indent (member :: members)
      (List.cons_ne_nil _ _) small)

theorem spellsItems_prettyItems (width : Nat) : ∀ (indent outer : Nat) (items : List Json),
    items ≠ [] → ItemsHaveNaturals items →
    SpellsItems (itemDocuments items) (prettyItems width indent items ++ newline outer)
  | _, _, [], filled, _ => absurd rfl filled
  | indent, outer, [item], _, small => by
    rw [ItemsHaveNaturals] at small
    have value := spells_prettyChars width indent item small.1
    simpa [itemDocuments, prettyItems] using
      SpellsItems.last (allBlank_newline indent) value (allBlank_newline outer)
  | indent, outer, item :: next :: items, _, small => by
    rw [ItemsHaveNaturals] at small
    have value := spells_prettyChars width indent item small.1
    have others :=
      spellsItems_prettyItems width indent outer (next :: items) (List.cons_ne_nil _ _) small.2
    simpa [itemDocuments, prettyItems] using
      SpellsItems.more (allBlank_newline indent) value allBlank_nil others

theorem spellsMembers_prettyMembers (width : Nat) : ∀ (indent outer : Nat)
    (members : List (String × Json)), members ≠ [] → MembersHaveNaturals members →
    SpellsMembers (memberDocuments members) (prettyMembers width indent members ++ newline outer)
  | _, _, [], filled, _ => absurd rfl filled
  | indent, outer, [(key, value)], _, small => by
    rw [MembersHaveNaturals] at small
    have spelled := spells_prettyChars width indent value small.1
    simpa [memberDocuments, prettyMembers] using
      SpellsMembers.last key (allBlank_newline indent) allBlank_nil allBlank_space spelled
        (allBlank_newline outer)
  | indent, outer, (key, value) :: next :: members, _, small => by
    rw [MembersHaveNaturals] at small
    have spelled := spells_prettyChars width indent value small.1
    have others :=
      spellsMembers_prettyMembers width indent outer (next :: members) (List.cons_ne_nil _ _) small.2
    simpa [memberDocuments, prettyMembers] using
      SpellsMembers.more key (allBlank_newline indent) allBlank_nil allBlank_space spelled
        allBlank_nil others

end

/-! Values -/

theorem place_eq (k : String) (v : Json) (es : List (String × Json)) :
    place k v es = TextMap.place k v es := by
  induction es with
  | nil => rfl
  | cons e es ih => rw [place, TextMap.place, ih]

/-- The members of an object stand as a map lists them. -/
theorem ofMembers_eq (members : List (String × Json)) :
    ofMembers members = .object (TextMap.ofList members).toList := by
  have placed : ∀ (es : List (String × Json)) (m : TextMap Json),
      es.foldl (fun es e => place e.1 e.2 es) m.toList =
        (es.foldl (fun m e => m.insert e.1 e.2) m).toList := by
    intro es
    induction es with
    | nil => intro m; rfl
    | cons e es ih =>
      intro m
      rw [List.foldl_cons, List.foldl_cons, place_eq]
      exact ih (m.insert e.1 e.2)
  rw [ofMembers, TextMap.ofList]
  exact congrArg Json.object (placed members TextMap.empty)

mutual

/-- A value with the members of all its objects as the reader lists them. -/
def sorted : Json → Json
  | .array items => .array (sortedItems items)
  | .object members => ofMembers (sortedMembers members)
  | value => value

/-- Values with the members of all their objects as the reader lists them. -/
def sortedItems : List Json → List Json
  | [] => []
  | item :: items => item.sorted :: sortedItems items

/-- Members with the members of all objects in them as the reader lists them. -/
def sortedMembers : List (String × Json) → List (String × Json)
  | [] => []
  | (key, value) :: members => (key, value.sorted) :: sortedMembers members

end

mutual

/-- How many arrays and objects are nested in a value. -/
def height : Json → Nat
  | .array items => itemsHeight items + 1
  | .object members => membersHeight members + 1
  | _ => 0

/-- How many arrays and objects are nested in one of some values. -/
def itemsHeight : List Json → Nat
  | [] => 0
  | item :: items => max item.height (itemsHeight items)

/-- How many arrays and objects are nested in the value of one of some members. -/
def membersHeight : List (String × Json) → Nat
  | [] => 0
  | (_, value) :: members => max value.height (membersHeight members)

end

mutual

/-- The document of a value stands for the value. -/
theorem value?_document : ∀ (v : Json) {depth : Nat}, v.height < depth →
    v.document.value? depth = some v.sorted
  | .null, _, _ => rfl
  | .bool _, _, _ => rfl
  | .number _, _, _ => rfl
  | .string _, _, _ => rfl
  | .array items, depth, low => by
    rw [height] at low
    have inside : Document.values? (depth - 1) (itemDocuments items) = some (sortedItems items) :=
      values?_itemDocuments items (by omega)
    have deep : ¬ depth ≤ 1 := by omega
    simp [document, Document.value?, sorted, deep, inside]
  | .object members, depth, low => by
    rw [height] at low
    have inside : Document.membersValue? (depth - 1) (memberDocuments members) =
        some (sortedMembers members) := membersValue?_memberDocuments members (by omega)
    have deep : ¬ depth ≤ 1 := by omega
    simp [document, Document.value?, sorted, deep, inside]

theorem values?_itemDocuments : ∀ (items : List Json) {depth : Nat}, itemsHeight items < depth →
    Document.values? depth (itemDocuments items) = some (sortedItems items)
  | [], _, _ => rfl
  | item :: items, depth, low => by
    rw [itemsHeight] at low
    have first : item.document.value? depth = some item.sorted :=
      value?_document item (by omega)
    have others : Document.values? depth (itemDocuments items) = some (sortedItems items) :=
      values?_itemDocuments items (by omega)
    simp [itemDocuments, Document.values?, sortedItems, first, others]

theorem membersValue?_memberDocuments : ∀ (members : List (String × Json)) {depth : Nat},
    membersHeight members < depth →
    Document.membersValue? depth (memberDocuments members) = some (sortedMembers members)
  | [], _, _ => rfl
  | (key, value) :: members, depth, low => by
    rw [membersHeight] at low
    have first : value.document.value? depth = some value.sorted :=
      value?_document value (by omega)
    have others : Document.membersValue? depth (memberDocuments members) =
        some (sortedMembers members) := membersValue?_memberDocuments members (by omega)
    simp [memberDocuments, Document.membersValue?, sortedMembers, first, others]

end

theorem sortedMembers_eq_map (members : List (String × Json)) :
    sortedMembers members = members.map fun m => (m.1, m.2.sorted) := by
  induction members with
  | nil => rfl
  | cons m members ih => rw [sortedMembers, ih]; rfl

theorem itemsHeight_le {items : List Json} {bound : Nat} (low : ∀ v ∈ items, v.height ≤ bound) :
    itemsHeight items ≤ bound := by
  induction items with
  | nil => exact Nat.zero_le bound
  | cons item items ih =>
    rw [itemsHeight]
    exact Nat.max_le.2 ⟨low item List.mem_cons_self,
      ih fun v member => low v (List.mem_cons_of_mem item member)⟩

theorem membersHeight_le {members : List (String × Json)} {bound : Nat}
    (low : ∀ m ∈ members, m.2.height ≤ bound) : membersHeight members ≤ bound := by
  induction members with
  | nil => exact Nat.zero_le bound
  | cons m members ih =>
    rw [membersHeight]
    exact Nat.max_le.2 ⟨low m List.mem_cons_self,
      ih fun n member => low n (List.mem_cons_of_mem m member)⟩

theorem itemsHaveNaturals_iff {items : List Json} :
    ItemsHaveNaturals items ↔ ∀ v ∈ items, v.HasNaturals := by
  induction items with
  | nil => simp [ItemsHaveNaturals]
  | cons item items ih => simp [ItemsHaveNaturals, ih]

theorem membersHaveNaturals_iff {members : List (String × Json)} :
    MembersHaveNaturals members ↔ ∀ m ∈ members, m.2.HasNaturals := by
  induction members with
  | nil => simp [MembersHaveNaturals]
  | cons m members ih => simp [MembersHaveNaturals, ih]

/-! Texts -/

theorem atEnd_blank {gap : List Char} (blank : AllBlank gap) : atEnd (some gap) = true := by
  have nothing : skipBlanks gap = [] := by
    rw [← List.append_nil gap, skipBlanks_append blank]
    rfl
  rw [atEnd, nothing]
  rfl

/-- A spelled text with blanks after it is read as its value. -/
theorem parse_spelled {v : Json} {text gap : List Char} (spelled : Spells v.document text)
    (blank : AllBlank gap) (low : v.height < depthLimit) :
    parse (String.ofList (text ++ gap)) = .ok v.sorted := by
  rw [parse, String.toList_ofList, readFirst_spelled spelled (endsNumber_blank blank)]
  simp only [value?_document v low, atEnd_blank blank, if_true]

/-- A spelled object with blanks after it is read as its members by key. -/
theorem parseMembers_spelled {members : List (String × Json)} {text gap : List Char}
    (spelled : Spells (Json.object members).document text) (blank : AllBlank gap)
    (low : (Json.object members).height < depthLimit) :
    parseMembers (String.ofList (text ++ gap)) =
      .ok (TextMap.ofList (sortedMembers members)).toList := by
  have value := value?_document (.object members) low
  rw [sorted, ofMembers_eq, document] at value
  rw [document] at spelled
  rw [parseMembers, String.toList_ofList, readFirst_spelled spelled (endsNumber_blank blank)]
  simp only [value, atEnd_blank blank, if_true]

/-- A value on one line is read with all its members in their order. -/
theorem readFirst_compact {v : Json} (small : v.HasNaturals) :
    readFirst v.compact.toList = (v.document, some []) := by
  have read := readFirst_spelled (spells_compactChars v small) endsNumber_nil
  rwa [List.append_nil, ← String.toList_ofList (l := compactChars v)] at read

/-- A value on one line is read back. -/
theorem parse_compact {v : Json} (small : v.HasNaturals) (low : v.height < depthLimit) :
    parse v.compact = .ok v.sorted := by
  have read := parse_spelled (spells_compactChars v small) allBlank_nil low
  rwa [List.append_nil] at read

/-- The members of an indented object are read back. -/
theorem parseMembers_pretty {members : List (String × Json)} (width : Nat)
    (small : (Json.object members).HasNaturals) (low : (Json.object members).height < depthLimit) :
    parseMembers (pretty width (.object members) ++ "\n") =
      .ok (TextMap.ofList (sortedMembers members)).toList := by
  have read := parseMembers_spelled (spells_prettyChars width 0 (.object members) small)
    (allBlank_newline 0) low
  rw [String.ofList_append] at read
  exact read

end RoutineWatch.Json
