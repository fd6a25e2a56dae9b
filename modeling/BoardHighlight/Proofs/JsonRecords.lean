import BoardHighlight.Proofs.JsonGrammar
import BoardHighlight.Proofs.ReadingBack
import BoardHighlight.Render.Records

/-!
# Records that are read back

What is written for a value is a JSON text of that value, at any depth and whatever follows it. A
text has one reading, so the file name and the tokens of every line are all that highlighted source
says, and they are read back from it without doubt.
-/

namespace BoardHighlight
set_option autoImplicit false

open JsonText (Chars Mark Reads ReadsItems ReadsMember ReadsMembers Value)

namespace JsonString

/-- The signs of the characters that are written with a letter or by themselves behind a backslash. -/
def shortEscapes : List (Char × Char) :=
  [('"', '"'), ('\\', '\\'), ('b', '\x08'), ('f', '\x0c'), ('n', '\n'), ('r', '\r'), ('t', '\t')]

theorem isUnit_controlDigits {c : Char} (h : c.toNat < 32) :
    JsonText.IsUnit '0' '0' (Nat.digitChar (c.toNat / 16)) (Nat.digitChar (c.toNat % 16)) c.toNat := by
  have hhigh : c.toNat / 16 < 16 := by omega
  have hlow : c.toNat % 16 < 16 := Nat.mod_lt _ (by decide)
  constructor
  · simp only [List.forall_mem_cons]
    exact ⟨by decide, by decide, isHexDigit_digitChar _ hhigh, isHexDigit_digitChar _ hlow, by simp⟩
  · have hzero : digitValue '0' = 0 := by decide
    simp only [digitsValue, List.foldl_cons, List.foldl_nil, hzero, digitValue_digitChar _ hhigh,
      digitValue_digitChar _ hlow]
    omega

theorem chars_encodeChar_append (c : Char) {t text rest : List Char} (h : Chars t text rest) :
    Chars (encodeChar c ++ t) (c :: text) rest := by
  by_cases hshort : ∃ x ∈ shortEscapes, c = x.2
  · obtain ⟨x, hx, rfl⟩ := hshort
    have hwrite : ∀ x ∈ shortEscapes, encodeChar x.2 = ['\\', x.1] := by decide
    have hknown : ∀ x ∈ shortEscapes, x ∈ JsonText.escapes := by decide
    rw [hwrite x hx]
    exact .escape (hknown x hx) h
  · have hne : ∀ x ∈ shortEscapes, c ≠ x.2 := fun x hx heq => hshort ⟨x, hx, heq⟩
    have hwrite : encodeChar c = if c.toNat < 32 then '\\' :: 'u' :: controlDigits c else [c] := by
      simp only [shortEscapes, List.forall_mem_cons] at hne
      simp [encodeChar, hne]
    rw [hwrite]
    split
    · rename_i hcontrol
      exact .unit (isUnit_controlDigits hcontrol) h
    · rename_i hcontrol
      exact .plain (hne ('"', '"') (by decide)) (hne ('\\', '\\') (by decide)) (by omega) h

theorem chars_flatMap_encodeChar (text rest : List Char) :
    Chars (text.flatMap encodeChar ++ '"' :: rest) text rest := by
  induction text with
  | nil => exact .close rest
  | cons c text ih =>
    rw [List.flatMap_cons, List.append_assoc]
    exact chars_encodeChar_append c ih

theorem encode_append (text rest : List Char) :
    encode text ++ rest = '"' :: (text.flatMap encodeChar ++ '"' :: rest) := by
  simp [encode]

end JsonString

namespace Json

theorem isSpace_of_mem_newLine (depth : Nat) : ∀ c ∈ newLine depth, JsonText.isSpace c = true := by
  intro c hc
  rcases List.mem_cons.mp hc with rfl | hc
  · rfl
  · rw [List.eq_of_mem_replicate hc]
    rfl

theorem reads_spaces_append {spaces t rest : List Char} {value : Value}
    (hspaces : ∀ c ∈ spaces, JsonText.isSpace c = true) (h : Reads t value rest) :
    Reads (spaces ++ t) value rest := by
  induction spaces with
  | nil => exact h
  | cons c spaces ih =>
    rw [List.forall_mem_cons] at hspaces
    exact .space hspaces.1 (ih hspaces.2)

theorem mark_spaces_append {mark : Char} {spaces : List Char} (rest : List Char)
    (hspaces : ∀ c ∈ spaces, JsonText.isSpace c = true) : Mark mark (spaces ++ mark :: rest) rest := by
  induction spaces with
  | nil => exact .here rest
  | cons c spaces ih =>
    rw [List.forall_mem_cons] at hspaces
    exact .space hspaces.1 (ih hspaces.2)

mutual

/-- The value that a JSON text is written for. -/
def value : Json → Value
  | null => .null
  | string text => .string text
  | array items => .array (itemValues items)
  | object fields => .object (memberValues fields)

def itemValues : List Json → List Value
  | [] => []
  | item :: rest => item.value :: itemValues rest

def memberValues : List (String × Json) → List (List Char × Value)
  | [] => []
  | (name, value) :: rest => (name.toList, value.value) :: memberValues rest

end

theorem reads_array {t rest : List Char} {item : Value} {items : List Value}
    (h : ReadsItems (',' :: t) (item :: items) rest) :
    Reads ('[' :: t) (.array (item :: items)) rest := by
  cases h with
  | next hmark hitem hitems =>
    obtain ⟨-, rfl⟩ := hmark.unique (.here t) (by decide) (by decide)
    exact .array hitem hitems

theorem reads_object {t rest : List Char} {member : List Char × Value}
    {members : List (List Char × Value)} (h : ReadsMembers (',' :: t) (member :: members) rest) :
    Reads ('{' :: t) (.object (member :: members)) rest := by
  cases h with
  | next hmark hmember hmembers =>
    obtain ⟨-, rfl⟩ := hmark.unique (.here t) (by decide) (by decide)
    exact .object hmember hmembers

theorem readsMember_append (depth : Nat) (name : List Char) {t rest : List Char} {value : Value}
    (h : Reads t value rest) :
    ReadsMember (newLine depth ++ (JsonString.encode name ++ (": ".toList ++ t))) (name, value) rest := by
  have htext : JsonString.encode name ++ (": ".toList ++ t) =
      '"' :: (name.flatMap JsonString.encodeChar ++ '"' :: ':' :: ' ' :: t) :=
    JsonString.encode_append name _
  rw [htext]
  exact .intro (mark_spaces_append _ (isSpace_of_mem_newLine depth)) (JsonString.chars_flatMap_encodeChar name _) (.here _)
    (.space (by decide) h)

-- Items and members are read with a comma in front of each; at the first one, an opening bracket
-- stands in its place.
mutual

theorem reads_pretty : ∀ (json : Json) (depth : Nat) (rest : List Char),
    Reads (json.pretty depth ++ rest) json.value rest
  | null, _, rest => .null rest
  | string text, _, rest => by
    rw [pretty, JsonString.encode_append]
    exact .string (JsonString.chars_flatMap_encodeChar text rest)
  | array [], _, rest => .noItems (.here rest)
  | array (item :: items), depth, rest => by
    have hitems := readsItems_pretty (item :: items) (depth + 1) (List.cons_ne_nil _ _)
      (mark_spaces_append rest (isSpace_of_mem_newLine depth))
    have htext : (array (item :: items)).pretty depth ++ rest =
        '[' :: (prettyItems (depth + 1) (item :: items) ++ (newLine depth ++ ']' :: rest)) := by
      simp [pretty]
    rw [htext]
    exact reads_array hitems
  | object [], _, rest => .noMembers (.here rest)
  | object (field :: fields), depth, rest => by
    have hmembers := readsMembers_pretty (field :: fields) (depth + 1) (List.cons_ne_nil _ _)
      (mark_spaces_append rest (isSpace_of_mem_newLine depth))
    have htext : (object (field :: fields)).pretty depth ++ rest =
        '{' :: (prettyFields (depth + 1) (field :: fields) ++ (newLine depth ++ '}' :: rest)) := by
      simp [pretty]
    rw [htext]
    exact reads_object hmembers

theorem readsItems_pretty : ∀ (items : List Json) (depth : Nat) {close rest : List Char},
    items ≠ [] → Mark ']' close rest →
    ReadsItems (',' :: (prettyItems depth items ++ close)) (itemValues items) rest
  | [], _, _, _, hne, _ => absurd rfl hne
  | [item], depth, close, rest, _, hclose => by
    have hitem := reads_spaces_append (isSpace_of_mem_newLine depth) (reads_pretty item depth close)
    rw [prettyItems, List.append_assoc]
    exact .next (.here _) hitem (.close hclose)
  | item :: next :: items, depth, close, rest, _, hclose => by
    have hitem := reads_spaces_append (isSpace_of_mem_newLine depth) (reads_pretty item depth
      (',' :: (prettyItems depth (next :: items) ++ close)))
    have hitems := readsItems_pretty (next :: items) depth (List.cons_ne_nil _ _) hclose
    simp only [prettyItems, List.append_assoc, List.cons_append]
    exact .next (.here _) hitem hitems

theorem readsMembers_pretty : ∀ (fields : List (String × Json)) (depth : Nat)
    {close rest : List Char}, fields ≠ [] → Mark '}' close rest →
    ReadsMembers (',' :: (prettyFields depth fields ++ close)) (memberValues fields) rest
  | [], _, _, _, hne, _ => absurd rfl hne
  | [(name, value)], depth, close, rest, _, hclose => by
    have hmember := readsMember_append depth name.toList (reads_pretty value depth close)
    simp only [prettyFields, List.append_assoc]
    exact .next (.here _) hmember (.close hclose)
  | (name, value) :: next :: fields, depth, close, rest, _, hclose => by
    have hmember := readsMember_append depth name.toList (reads_pretty value depth
      (',' :: (prettyFields depth (next :: fields) ++ close)))
    have hmembers := readsMembers_pretty (next :: fields) depth (List.cons_ne_nil _ _) hclose
    simp only [prettyFields, List.append_assoc, List.cons_append]
    exact .next (.here _) hmember hmembers

end

theorem itemValues_eq_map (items : List Json) : itemValues items = items.map value := by
  induction items with
  | nil => rfl
  | cons item items ih => rw [itemValues, ih, List.map_cons]

end Json

/-! ## Tokens of a file -/

namespace JsonText.Value

def ofStyle : Option String → Value
  | some tag => .string tag.toList
  | none => .null

def ofToken (token : Token) : Value :=
  .object [("kind".toList, .string token.kind.name.toList), ("style".toList, ofStyle token.kind.style?),
    ("lexeme".toList, .string token.lexeme)]

/-- A file by its name, with one array for each line. -/
def ofFile (file : List Char) (rows : List (List Token)) : Value :=
  .object [("file".toList, .string file),
    ("lines".toList, .array (rows.map fun tokens => .array (tokens.map ofToken)))]

theorem ofStyle_eq_null_iff {kind : Kind} : ofStyle kind.style? = .null ↔ kind = .plain := by
  rw [← Kind.style?_eq_none_iff]
  cases kind.style? <;> simp [ofStyle]

theorem ofToken_inj {token other : Token} (h : ofToken token = ofToken other) : token = other := by
  simp only [ofToken, Value.object.injEq, List.cons.injEq, Prod.mk.injEq, Value.string.injEq,
    true_and, and_true] at h
  obtain ⟨hname, -, hlexeme⟩ := h
  have hkind := congrArg Kind.ofName? (String.toList_inj.mp hname)
  rw [Kind.ofName?_name, Kind.ofName?_name] at hkind
  cases token
  cases other
  rw [Token.mk.injEq]
  exact ⟨Option.some.inj hkind, hlexeme⟩

theorem ofFile_inj {file name : List Char} {rows others : List (List Token)}
    (h : ofFile file rows = ofFile name others) : file = name ∧ rows = others := by
  simp only [ofFile, Value.object.injEq, List.cons.injEq, Prod.mk.injEq, Value.string.injEq,
    Value.array.injEq, true_and, and_true] at h
  refine ⟨h.1, (List.map_inj_right ?_).mp h.2⟩
  intro tokens tokens' heq
  exact (List.map_inj_right fun _ _ => ofToken_inj).mp (Value.array.inj heq)

end JsonText.Value

theorem Json.value_ofToken (token : Token) : (ofToken token).value = .ofToken token := by
  have hstyle : (ofStyle token.kind.style?).value = .ofStyle token.kind.style? := by
    cases token.kind.style? <;> rfl
  simp only [ofToken, value, memberValues, hstyle]
  rfl

theorem Json.value_ofLines (file : List Char) (rows : List (List Token)) :
    (ofLines file rows).value = .ofFile file rows := by
  have hitems : ∀ items : List Json, (array items).value = .array (items.map value) := by
    intro items
    rw [value, itemValues_eq_map]
  have htokens : ∀ tokens : List Token,
      (array (tokens.map ofToken)).value = .array (tokens.map Value.ofToken) := by
    intro tokens
    rw [hitems, List.map_map]
    exact congrArg Value.array (List.map_congr_left fun token _ => value_ofToken token)
  have hrows : (array (rows.map fun tokens => array (tokens.map ofToken))).value =
      .array (rows.map fun tokens => .array (tokens.map Value.ofToken)) := by
    rw [hitems, List.map_map]
    exact congrArg Value.array (List.map_congr_left fun tokens _ => htokens tokens)
  rw [ofLines, value, memberValues, memberValues, memberValues, hrows]
  rfl

namespace Document

theorem denotes_toJson (doc : Document) (file : List Char) :
    JsonText.Denotes (doc.toJson file) (.ofFile file doc.lineTokens) := by
  refine ⟨['\n'], ?_, by simp [JsonText.isSpace]⟩
  rw [toJson, ← Json.value_ofLines]
  exact Json.reads_pretty _ 0 ['\n']

/-- Records say what they are written for and nothing else: as a JSON text they denote one value,
an object with the file name and an array of tokens for each line. The style is null for the kind
without a style only, and two records are equal exactly if the names and the tokens are. -/
theorem toJson_denotes_iff (doc : Document) (file : List Char) :
    (∀ value, JsonText.Denotes (doc.toJson file) value ↔ value = .ofFile file doc.lineTokens) ∧
    doc.lineTokens.length = doc.lineCount ∧
    (∀ kind : Kind, Value.ofStyle kind.style? = .null ↔ kind = .plain) ∧
    ∀ (other : Document) (name : List Char),
      other.toJson name = doc.toJson file ↔ name = file ∧ other.lineTokens = doc.lineTokens := by
  have hdoc := denotes_toJson doc file
  refine ⟨?_, doc.lineTokens_length, fun _ => Value.ofStyle_eq_null_iff, ?_⟩
  · intro value
    constructor
    · intro h
      exact h.unique hdoc
    · rintro rfl
      exact hdoc
  · intro other name
    constructor
    · intro h
      have hother := denotes_toJson other name
      rw [h] at hother
      exact Value.ofFile_inj (hother.unique hdoc)
    · rintro ⟨rfl, hrows⟩
      rw [toJson, toJson, hrows]

end Document

end BoardHighlight
