import RoutineWatch.Proofs.Path.Parent
import RoutineWatch.Proofs.Text.Cuts
import RoutineWatch.Proofs.Text.Lossy

/-!
# The normal form of a path

A text is a normal form exactly if no part of it is a dot, no two slashes stand side by side
and none stands at its end, the root's alone excepted; these are the texts that are their own
normal form. A normal form tells whether the path starts at the root, and how its parts read
as text; of a path that is a text it tells all its parts.

- `Path.posix_posix`: a normal form is its own.
- `Path.isNormal_iff`: what normal forms look like.
- `Path.posix_eq_posix_iff`: when two paths have one.
- `Path.posix_ofString_eq_iff`: texts have one exactly if they go the same way.
-/
namespace RoutineWatch.Path

/-! The parts of a text -/

theorem pieces_eq_splitOn (bytes : Bytes) : pieces bytes = bytes.splitOn slash := by
  induction bytes with
  | nil => rfl
  | cons b bytes ih =>
    rw [pieces, List.splitOn_cons_eq_if_modifyHead, ih]
    by_cases separates : b = slash
    · simp [separates]
    · rw [if_neg separates, if_neg (by simpa using separates)]
      cases parts : bytes.splitOn slash with
      | nil => exact absurd parts (List.splitOn_ne_nil _ _)
      | cons part parts => rfl

/-- What a part of a path can be. -/
theorem of_mem_parts {p : Path} {part : Bytes} (member : part ∈ p.parts) :
    part ≠ [] ∧ part ≠ dot ∧ slash ∉ part := by
  obtain ⟨cut, moves⟩ := List.mem_filter.1 member
  obtain ⟨filled, other⟩ := of_decide_eq_true moves
  rw [pieces_eq_splitOn] at cut
  exact ⟨filled, other, Cuts.not_mem_of_mem_splitOn cut⟩

/-- The bytes of a text. -/
def encoded (text : List Char) : Bytes := text.flatMap String.utf8EncodeChar

/-- Slashes cut the bytes of a text where they cut the text. -/
theorem splitOn_encoded (text : List Char) :
    (encoded text).splitOn slash = (text.splitOn '/').map encoded := by
  induction text with
  | nil => rfl
  | cons c text ih =>
    rw [encoded, List.flatMap_cons, List.splitOn_cons_eq_if_modifyHead]
    by_cases separates : c = '/'
    · subst separates
      rw [if_pos (by decide), List.map_cons, ← ih]
      exact List.splitOn_append_cons_self [] _
    · have free : slash ∉ String.utf8EncodeChar c := fun member =>
        separates (Utf8.slash_mem_utf8EncodeChar.1 member)
      rw [if_neg (by simpa using separates), Cuts.splitOn_append_of_not_mem free, ← encoded, ih]
      cases text.splitOn '/' with
      | nil => rfl
      | cons part parts => simp [encoded]

theorem decodeLossy_encoded (text : List Char) : Utf8.decodeLossy (encoded text) = text :=
  Utf8.decodeLossy_encoded text

theorem encoded_injective : Function.Injective encoded := by
  intro a b same
  rw [← decodeLossy_encoded a, ← decodeLossy_encoded b, same]

theorem encoded_eq_nil_iff {text : List Char} : encoded text = [] ↔ text = [] := by
  cases text <;> simp [encoded, String.utf8EncodeChar_ne_nil]

theorem encoded_eq_dot_iff {text : List Char} : encoded text = dot ↔ text = ['.'] := by
  have one : encoded ['.'] = dot := by decide
  constructor
  · intro same
    exact encoded_injective (same.trans one.symm)
  · intro same
    rw [same, one]

/-- The parts of a text that lead somewhere. -/
def textParts (text : List Char) : List (List Char) :=
  (text.splitOn '/').filter fun part => part ≠ [] ∧ part ≠ ['.']

theorem filter_parts {row : List (List Char)} (lead : ∀ part ∈ row, part ≠ [] ∧ part ≠ ['.']) :
    row.filter (fun part => part ≠ [] ∧ part ≠ ['.']) = row := by
  rw [List.filter_eq_self]
  intro part member
  exact decide_eq_true (lead part member)

/-- The parts of the path of a text are the parts of the text. -/
theorem parts_ofString (text : String) :
    (ofString text).parts = (textParts text.toList).map encoded := by
  unfold parts textParts ofString
  rw [pieces_eq_splitOn, Utf8.encode_eq, ← encoded, splitOn_encoded, List.filter_map]
  congr 2
  funext part
  simp [encoded_eq_nil_iff, encoded_eq_dot_iff]

/-- The path of a text starts at the root if the text starts with a slash. -/
theorem isAbsolute_ofString (text : String) :
    (ofString text).isAbsolute = decide (text.toList.head? = some '/') := by
  unfold isAbsolute ofString
  rw [Utf8.encode_eq]
  cases letters : text.toList with
  | nil => rfl
  | cons c rest =>
    rw [List.flatMap_cons]
    by_cases slashed : c = '/'
    · subst slashed
      rfl
    · cases bytes : String.utf8EncodeChar c with
      | nil => exact absurd bytes String.utf8EncodeChar_ne_nil
      | cons b others =>
        have other : b ≠ slash := by
          intro same
          apply slashed
          rw [← Utf8.slash_mem_utf8EncodeChar, bytes, ← same]
          exact List.mem_cons_self
        simp [other, slashed]

/-! Normal forms -/

/-- A part that can stand in a normal form. -/
def IsTextPart (part : List Char) : Prop := part ≠ [] ∧ part ≠ ['.'] ∧ '/' ∉ part

/-- A text of parts with single slashes between them, and one ahead if `rooted`. -/
def normalText (rooted : Bool) (parts : List (List Char)) : List Char :=
  (if rooted then ['/'] else []) ++ ['/'].intercalate parts

/-- The parts of a path as they read. -/
def readParts (p : Path) : List (List Char) := p.parts.map Utf8.decodeLossy

theorem toList_posix (p : Path) : p.posix.toList = normalText p.isAbsolute p.readParts := by
  unfold posix normalText readParts
  have body : (String.intercalate "/" (p.parts.map Utf8.lossy)).toList =
      ['/'].intercalate (p.parts.map Utf8.decodeLossy) := by
    rw [String.toList_intercalate, List.map_map]
    congr 2
    funext part
    exact String.toList_ofList
  split
  · rw [String.toList_append, body]
    rfl
  · exact body

theorem readParts_ofString (text : String) : (ofString text).readParts = textParts text.toList := by
  have back : Utf8.decodeLossy ∘ encoded = id := funext decodeLossy_encoded
  rw [readParts, parts_ofString, List.map_map, back, List.map_id]

theorem toList_posix_ofString (text : String) :
    (ofString text).posix.toList =
      normalText (decide (text.toList.head? = some '/')) (textParts text.toList) := by
  rw [toList_posix, isAbsolute_ofString, readParts_ofString]

theorem isTextPart_of_mem_parts {p : Path} {part : Bytes} (member : part ∈ p.parts) :
    IsTextPart (Utf8.decodeLossy part) := by
  obtain ⟨filled, other, free⟩ := of_mem_parts member
  refine ⟨?_, ?_, ?_⟩
  · intro empty
    exact filled (Utf8.decodeLossy_eq_nil_iff.1 empty)
  · intro dotted
    exact other (Utf8.eq_of_decodeLossy_eq_singleton (by decide) dotted)
  · intro slashed
    exact free (Utf8.byte_mem_of_mem_decodeLossy (by decide) slashed)

section
variable {rooted : Bool} {parts : List (List Char)}

theorem splitOn_normalText (plain : ∀ part ∈ parts, IsTextPart part) :
    (normalText rooted parts).splitOn '/' =
      (if rooted then [[]] else []) ++ (if parts = [] then [[]] else parts) := by
  have body : (['/'].intercalate parts).splitOn '/' = if parts = [] then [[]] else parts := by
    split
    · next none =>
      subst none
      rfl
    · next some =>
      exact List.splitOn_intercalate '/' (fun part member => (plain part member).2.2) some
  unfold normalText
  cases rooted with
  | false => simpa using body
  | true =>
    rw [if_pos rfl, if_pos rfl, List.singleton_append, ← body]
    exact List.splitOn_append_cons_self [] _

theorem head?_normalText (plain : ∀ part ∈ parts, IsTextPart part) :
    (normalText rooted parts).head? = some '/' ↔ rooted = true := by
  cases rooted with
  | true => simp [normalText]
  | false =>
    cases parts with
    | nil => simp [normalText]
    | cons part parts =>
      obtain ⟨filled, _, free⟩ := plain part List.mem_cons_self
      cases part with
      | nil => exact absurd rfl filled
      | cons c part =>
        have other : c ≠ '/' := fun same => free (same ▸ List.mem_cons_self)
        cases parts <;> simp [normalText, other]

theorem textParts_normalText (plain : ∀ part ∈ parts, IsTextPart part) :
    textParts (normalText rooted parts) = parts := by
  have kept := filter_parts fun part member => ⟨(plain part member).1, (plain part member).2.1⟩
  unfold textParts
  rw [splitOn_normalText plain, List.filter_append]
  split <;> split <;> simp_all

end

section
variable (p q : Path)

theorem isTextPart_of_mem_readParts : ∀ part ∈ p.readParts, IsTextPart part := by
  intro part member
  obtain ⟨bytes, own, rfl⟩ := List.mem_map.1 member
  exact isTextPart_of_mem_parts own

theorem splitOn_posix :
    p.posix.toList.splitOn '/' =
      (if p.isAbsolute then [[]] else []) ++ (if p.readParts = [] then [[]] else p.readParts) := by
  rw [toList_posix]
  exact splitOn_normalText p.isTextPart_of_mem_readParts

theorem textParts_posix : textParts p.posix.toList = p.readParts := by
  rw [toList_posix]
  exact textParts_normalText p.isTextPart_of_mem_readParts

theorem head?_posix : p.posix.toList.head? = some '/' ↔ p.isAbsolute = true := by
  rw [toList_posix]
  exact head?_normalText p.isTextPart_of_mem_readParts

/-- A normal form is its own. -/
theorem posix_posix : (ofString p.posix).posix = p.posix := by
  have rooted : decide (p.posix.toList.head? = some '/') = p.isAbsolute := by
    rw [Bool.eq_iff_iff, decide_eq_true_iff]
    exact p.head?_posix
  apply String.toList_inj.1
  rw [toList_posix_ofString, textParts_posix, rooted, toList_posix]

/-- A normal form tells whether the path starts at the root, and how its parts read. -/
theorem posix_eq_posix_iff :
    p.posix = q.posix ↔ p.isAbsolute = q.isAbsolute ∧ p.readParts = q.readParts := by
  constructor
  · intro same
    refine ⟨?_, ?_⟩
    · rw [Bool.eq_iff_iff, ← head?_posix, ← head?_posix, same]
    · rw [← textParts_posix, ← textParts_posix, same]
  · intro same
    obtain ⟨rooted, parts⟩ := same
    apply String.toList_inj.1
    rw [toList_posix, toList_posix, rooted]
    exact congrArg (normalText q.isAbsolute) parts

end

/-- Two paths go the same way: both from the root or both from where one stands, and through
the same parts, when empty ones and dots are left out. -/
structure SameWay (p q : Path) : Prop where
  rooted : p.bytes.head? = some slash ↔ q.bytes.head? = some slash
  parts : (p.bytes.splitOn slash).filter (fun part => part ≠ [] ∧ part ≠ dot) =
    (q.bytes.splitOn slash).filter (fun part => part ≠ [] ∧ part ≠ dot)

theorem sameWay_iff {p q : Path} :
    SameWay p q ↔ p.isAbsolute = q.isAbsolute ∧ p.parts = q.parts := by
  unfold isAbsolute parts
  rw [pieces_eq_splitOn, pieces_eq_splitOn, decide_eq_decide]
  exact ⟨fun same => ⟨same.rooted, same.parts⟩, fun same => ⟨same.1, same.2⟩⟩

/-- Texts have one normal form exactly if they go the same way. -/
theorem posix_ofString_eq_iff (a b : String) :
    (ofString a).posix = (ofString b).posix ↔ SameWay (ofString a) (ofString b) := by
  rw [posix_eq_posix_iff, sameWay_iff, readParts_ofString, readParts_ofString, parts_ofString,
    parts_ofString]
  apply and_congr_right
  intro _
  exact (List.map_inj_right fun _ _ same => encoded_injective same).symm

/-- What a normal form looks like. -/
structure IsNormal (text : String) : Prop where
  noDot : ['.'] ∉ text.toList.splitOn '/'
  noDouble : ¬ ['/', '/'] <:+: text.toList
  noTrailing : text = "/" ∨ text.toList.getLast? ≠ some '/'

/-- A text without a dot, and without an empty part after the first. -/
theorem isNormal_iff_parts {text : String} :
    IsNormal text ↔ ['.'] ∉ text.toList.splitOn '/' ∧
      (text = "/" ∨ [] ∉ (text.toList.splitOn '/').tail) := by
  rw [Cuts.nil_mem_tail_splitOn_iff, not_or]
  constructor
  · intro normal
    exact ⟨normal.noDot, normal.noTrailing.imp_right fun last => ⟨last, normal.noDouble⟩⟩
  · intro parts
    obtain ⟨noDot, root | ⟨last, double⟩⟩ := parts
    · subst root
      exact ⟨noDot, by decide, Or.inl rfl⟩
    · exact ⟨noDot, double, Or.inr last⟩

/-- Every path is written so. -/
theorem isNormal_posix (p : Path) : IsNormal p.posix := by
  rw [isNormal_iff_parts, splitOn_posix]
  by_cases none : p.readParts = []
  · rw [if_pos none]
    refine ⟨by split <;> simp, ?_⟩
    cases rooted : p.isAbsolute with
    | false => exact Or.inr (by simp)
    | true =>
      left
      apply String.toList_inj.1
      rw [toList_posix, rooted, none]
      rfl
  · rw [if_neg none]
    have plain := p.isTextPart_of_mem_readParts
    have noDot : ['.'] ∉ p.readParts := fun member => (plain _ member).2.1 rfl
    have noEmpty : [] ∉ p.readParts := fun member => (plain _ member).1 rfl
    refine ⟨by split <;> simp [noDot], Or.inr ?_⟩
    split
    · exact noEmpty
    · intro member
      exact noEmpty (List.mem_of_mem_tail member)

/-- A text with no dot and no empty part after the first is its parts with slashes between
them, and one ahead if the first is empty. -/
theorem normalText_textParts {text : List Char} (noDot : ['.'] ∉ text.splitOn '/')
    (noEmpty : [] ∉ (text.splitOn '/').tail) :
    normalText (decide (text.head? = some '/')) (textParts text) = text := by
  have whole : ['/'].intercalate (text.splitOn '/') = text := List.intercalate_splitOn '/'
  have free : ∀ part ∈ text.splitOn '/', '/' ∉ part := fun _ => Cuts.not_mem_of_mem_splitOn
  unfold textParts
  cases cut : text.splitOn '/' with
  | nil => exact absurd cut (List.splitOn_ne_nil _ _)
  | cons first others =>
    rw [cut] at noDot noEmpty whole free
    have kept : others.filter (fun part => part ≠ [] ∧ part ≠ ['.']) = others := by
      apply filter_parts
      intro part member
      exact ⟨fun empty => noEmpty (empty ▸ member),
        fun dotted => noDot (dotted ▸ List.mem_cons_of_mem first member)⟩
    rw [← whole]
    cases first with
    | nil =>
      rw [List.filter_cons_of_neg (by simp), kept]
      cases others with
      | nil => rfl
      | cons part others => simp [normalText]
    | cons c rest =>
      have dotted : c :: rest ≠ ['.'] := fun same => noDot (same ▸ List.mem_cons_self)
      have other : c ≠ '/' := fun same =>
        free (c :: rest) List.mem_cons_self (same ▸ List.mem_cons_self)
      rw [List.filter_cons, kept, if_pos (decide_eq_true ⟨List.cons_ne_nil c rest, dotted⟩)]
      cases others <;> simp [normalText, other]

/-- The normal forms are the texts that are their own normal form. -/
theorem isNormal_iff {text : String} : IsNormal text ↔ (ofString text).posix = text := by
  constructor
  · intro normal
    obtain ⟨noDot, root | noEmpty⟩ := isNormal_iff_parts.1 normal
    · subst root
      decide +kernel
    · apply String.toList_inj.1
      rw [toList_posix_ofString]
      exact normalText_textParts noDot noEmpty
  · intro same
    rw [← same]
    exact isNormal_posix _

/-- A path spelled with a dot, two slashes and a slash at its end. -/
example : (ofString "./src//math/./sin.rs/").posix = "src/math/sin.rs" := by decide +kernel

end RoutineWatch.Path
