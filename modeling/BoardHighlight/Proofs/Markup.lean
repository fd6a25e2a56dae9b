import BoardHighlight.Render.Html

/-!
# Markup that is read back

HTML is read here as any reader of it would do: text is cut into tags and characters at angle
brackets, a span is a start tag with a class list and the characters up to the next tag, and the
five entities are replaced in one pass. What a document is written as is a flat sequence of spans and
of text between them. Escaped text holds no bracket, so the tags are those of the spans and no
others, and each styled token is read back from its span.
-/

namespace BoardHighlight
set_option autoImplicit false

namespace Html

/-! ## Reading -/

/-- A tag, by what stands between its brackets, or a character outside of tags. -/
inductive Item where
  | tag (content : List Char)
  | char (c : Char)

/-- Cuts text into tags and characters. -/
def items : List Char → List Item
  | [] => []
  | c :: rest =>
    if c == '<' then
      .tag (rest.takeWhile (· != '>')) :: items ((rest.dropWhile (· != '>')).drop 1)
    else .char c :: items rest
termination_by cs => cs.length
decreasing_by
  · have hle := (List.dropWhile_sublist (l := rest) (· != '>')).length_le
    simp only [List.length_drop, List.length_cons]
    omega
  · exact Nat.lt_succ_self _

namespace Item

def char? : Item → Option Char
  | tag _ => none
  | char c => some c

def tag? : Item → Option (List Char)
  | tag content => some content
  | char _ => none

end Item

/-- The text with its tags deleted. -/
def deleteTags (cs : List Char) : List Char := (items cs).filterMap Item.char?

def tags (cs : List Char) : List (List Char) := (items cs).filterMap Item.tag?

/-- The characters up to the first tag. -/
def leadingText : List Item → List Char
  | .char c :: rest => c :: leadingText rest
  | _ => []

/-- The class list of the start tag of a span. -/
def spanClasses? (content : List Char) : Option (List Char) :=
  ("span class=\"".toList.isPrefixOf? content).map fun rest => rest.takeWhile (· != '"')

/-- The spans among tags and characters, each with its class list and what is written in it. -/
def spansOf : List Item → List (List Char × List Char)
  | [] => []
  | .char _ :: rest => spansOf rest
  | .tag content :: rest =>
    match spanClasses? content with
    | some classes => (classes, leadingText rest) :: spansOf rest
    | none => spansOf rest

def spans (cs : List Char) : List (List Char × List Char) := spansOf (items cs)

/-- Replaces the five entities, in one pass. -/
def unescape : List Char → List Char
  | '&' :: 'a' :: 'm' :: 'p' :: ';' :: rest => '&' :: unescape rest
  | '&' :: 'l' :: 't' :: ';' :: rest => '<' :: unescape rest
  | '&' :: 'g' :: 't' :: ';' :: rest => '>' :: unescape rest
  | '&' :: 'q' :: 'u' :: 'o' :: 't' :: ';' :: rest => '"' :: unescape rest
  | '&' :: '#' :: '3' :: '9' :: ';' :: rest => '\'' :: unescape rest
  | c :: rest => c :: unescape rest
  | [] => []

/-- The kind with the given classes: they are the words of its tag, each behind a mark. -/
def kindOf? (classes : List Char) : Option Kind :=
  Kind.ofTag? (String.ofList ([' '].intercalate ((words classes).map (·.drop 3))))

/-- The token that a span shows. -/
def tokenOf? (span : List Char × List Char) : Option Token :=
  (kindOf? span.1).map fun kind => ⟨kind, unescape span.2⟩

/-! ## Grammar -/

/-- The characters of markup, each with the entity that stands for it. -/
def entities : List (Char × List Char) :=
  [('&', "&amp;".toList), ('<', "&lt;".toList), ('>', "&gt;".toList), ('"', "&quot;".toList),
    ('\'', "&#39;".toList)]

def isBare (c : Char) : Bool := !entities.any (·.1 == c)

/-- Text that holds no markup: an ampersand always starts an entity. -/
structure Escaped (written : List Char) : Prop where
  no_markup : ∀ c ∈ written, c ∉ ['<', '>', '"', '\'']
  entity : ∀ back, '&' :: back <:+ written → ∃ x ∈ entities, x.2 <+: '&' :: back

def startTag (classes : List Char) : List Char :=
  "span class=\"".toList ++ (classes ++ "\"".toList)

def endTag : List Char := "/span".toList

/-- The tags around a span. -/
def spanTags (span : List Char × List Char) : List (List Char) := [startTag span.1, endTag]

/-- What the body of a document is made of. -/
inductive Piece where
  | text (written : List Char)
  | span (classes written : List Char)

namespace Piece

def write : Piece → List Char
  | text written => written
  | span classes written =>
    "<span class=\"".toList ++ classes ++ "\">".toList ++ written ++ "</span>".toList

def written : Piece → List Char
  | text written => written
  | span _ written => written

def span? : Piece → Option (List Char × List Char)
  | text _ => none
  | span classes written => some (classes, written)

/-- The text is escaped, and the classes hold no character of markup. -/
def Sound : Piece → Prop
  | text written => Escaped written
  | span classes written => (∀ c ∈ classes, isBare c = true) ∧ Escaped written

/-- What a piece is cut into. -/
def items : Piece → List Item
  | text written => written.map .char
  | span classes written => .tag (startTag classes) :: (written.map .char ++ [.tag endTag])

end Piece

/-! ## Pieces are read back -/

theorem items_char_append {text : List Char} (h : '<' ∉ text) (rest : List Char) :
    items (text ++ rest) = text.map .char ++ items rest := by
  induction text with
  | nil => rfl
  | cons c text ih =>
    rw [List.mem_cons, not_or] at h
    have hc : ¬(c == '<') = true := by
      rw [beq_iff_eq]
      exact fun heq => h.1 heq.symm
    rw [List.cons_append, items, if_neg hc, ih h.2, List.map_cons, List.cons_append]

theorem bne_of_not_mem {mark : Char} {text : List Char} (h : mark ∉ text) :
    ∀ c ∈ text, (c != mark) = true := by
  intro c hc
  rw [bne_iff_ne]
  rintro rfl
  exact h hc

theorem items_tag_append {content : List Char} (h : '>' ∉ content) (rest : List Char) :
    items ('<' :: (content ++ '>' :: rest)) = .tag content :: items rest := by
  rw [items, if_pos (by rfl), List.takeWhile_append_of_pos (bne_of_not_mem h),
    List.dropWhile_append_of_pos (bne_of_not_mem h)]
  simp

theorem Escaped.not_mem {written : List Char} (h : Escaped written) : '<' ∉ written := by
  intro hmem
  exact h.no_markup _ hmem (by decide)

theorem not_mem_of_isBare {text : List Char} (h : ∀ c ∈ text, isBare c = true) {c : Char}
    (hc : isBare c = false) : c ∉ text := by
  intro hmem
  rw [h c hmem] at hc
  cases hc

theorem startTag_eq (classes : List Char) :
    startTag classes = "span class=\"".toList ++ (classes ++ "\"".toList) := rfl

namespace Piece
variable {piece : Piece}

theorem write_span_append (classes written rest : List Char) :
    (span classes written).write ++ rest =
      '<' :: (startTag classes ++ '>' :: (written ++ '<' :: (endTag ++ '>' :: rest))) := by
  have hwrite : (span classes written).write =
      "<span class=\"".toList ++ classes ++ "\">".toList ++ written ++ "</span>".toList := rfl
  rw [hwrite, startTag_eq]
  simp only [List.append_assoc]
  rfl

theorem items_span_append (classes written : List Char) (rest : List Item) :
    (span classes written).items ++ rest =
      .tag (startTag classes) :: (written.map .char ++ .tag endTag :: rest) := by
  rw [items, List.cons_append, List.append_assoc (written.map Item.char)]
  rfl

theorem items_write_append (h : piece.Sound) (rest : List Char) :
    Html.items (piece.write ++ rest) = piece.items ++ Html.items rest := by
  cases piece with
  | text written => exact items_char_append (Escaped.not_mem h) rest
  | span classes written =>
    have hopen : '>' ∉ startTag classes := by
      simp only [startTag_eq, List.mem_append, not_or]
      exact ⟨by decide, not_mem_of_isBare h.1 (by decide), by decide⟩
    have hclose : '>' ∉ endTag := by decide
    rw [write_span_append, items_tag_append hopen, items_char_append h.2.not_mem,
      items_tag_append hclose, items_span_append]

theorem filterMap_char?_items : piece.items.filterMap Item.char? = piece.written := by
  have hchars : ∀ text : List Char, (text.map Item.char).filterMap Item.char? = text := by
    intro text
    rw [List.filterMap_map]
    exact List.filterMap_some
  cases piece with
  | text written => exact hchars written
  | span classes text =>
    rw [items, List.filterMap_cons, List.filterMap_append, hchars]
    exact List.append_nil text

theorem filterMap_tag?_items :
    piece.items.filterMap Item.tag? = piece.span?.toList.flatMap spanTags := by
  have hchars : ∀ text : List Char, (text.map Item.char).filterMap Item.tag? = [] := by
    intro text
    induction text with
    | nil => rfl
    | cons c text ih => exact ih
  cases piece with
  | text written => exact hchars written
  | span classes text =>
    rw [items, List.filterMap_cons, List.filterMap_append, hchars]
    rfl

theorem spansOf_chars (text : List Char) (rest : List Item) :
    spansOf (text.map .char ++ rest) = spansOf rest := by
  induction text with
  | nil => rfl
  | cons c text ih => exact ih

theorem leadingText_chars (text content : List Char) (rest : List Item) :
    leadingText (text.map .char ++ .tag content :: rest) = text := by
  induction text with
  | nil => rfl
  | cons c text ih => exact congrArg (List.cons c) ih

theorem spanClasses?_append {classes : List Char} (h : '"' ∉ classes) :
    spanClasses? (startTag classes) = some classes := by
  have hrest : "span class=\"".toList.isPrefixOf? (startTag classes) =
      some (classes ++ ['"']) := rfl
  rw [spanClasses?, hrest, Option.map_some, List.takeWhile_append_of_pos (bne_of_not_mem h)]
  simp

theorem spansOf_items_append (h : piece.Sound) (rest : List Item) :
    spansOf (piece.items ++ rest) = piece.span?.toList ++ spansOf rest := by
  cases piece with
  | text written => exact spansOf_chars written rest
  | span classes written =>
    have hquote : '"' ∉ classes := not_mem_of_isBare h.1 (by decide)
    have hclose : spanClasses? endTag = none := by decide
    rw [items_span_append, spansOf, spanClasses?_append hquote]
    dsimp only
    rw [leadingText_chars, spansOf_chars, spansOf, hclose]
    rfl

end Piece

section Pieces
variable {pieces : List Piece}

theorem items_flatMap_write (h : ∀ piece ∈ pieces, piece.Sound) :
    items (pieces.flatMap Piece.write) = pieces.flatMap Piece.items := by
  induction pieces with
  | nil => simp [items]
  | cons piece pieces ih =>
    rw [List.forall_mem_cons] at h
    rw [List.flatMap_cons, Piece.items_write_append h.1, ih h.2, List.flatMap_cons]

/-- Without its tags, a sequence of pieces is what is written in them. -/
theorem deleteTags_flatMap_write (h : ∀ piece ∈ pieces, piece.Sound) :
    deleteTags (pieces.flatMap Piece.write) = pieces.flatMap Piece.written := by
  rw [deleteTags, items_flatMap_write h, List.filterMap_flatMap]
  exact congrArg (pieces.flatMap ·) (funext fun _ => Piece.filterMap_char?_items)

/-- The spans of a sequence of pieces are found, and no others. -/
theorem spans_flatMap_write (h : ∀ piece ∈ pieces, piece.Sound) :
    spans (pieces.flatMap Piece.write) = pieces.filterMap Piece.span? := by
  rw [spans, items_flatMap_write h]
  induction pieces with
  | nil => rfl
  | cons piece pieces ih =>
    rw [List.forall_mem_cons] at h
    rw [List.flatMap_cons, Piece.spansOf_items_append h.1, ih h.2, List.filterMap_cons]
    cases piece <;> rfl

/-- The only tags of a sequence of pieces are those around its spans. -/
theorem tags_flatMap_write (h : ∀ piece ∈ pieces, piece.Sound) :
    tags (pieces.flatMap Piece.write) = (pieces.filterMap Piece.span?).flatMap spanTags := by
  rw [tags, items_flatMap_write h]
  clear h
  induction pieces with
  | nil => rfl
  | cons piece pieces ih =>
    rw [List.flatMap_cons, List.filterMap_append, Piece.filterMap_tag?_items, ih,
      List.filterMap_cons]
    cases piece <;> rfl

end Pieces

/-! ## Escaped text -/

theorem escapeChar_cases (c : Char) :
    (c, escapeChar c) ∈ entities ∨ isBare c = true ∧ escapeChar c = [c] := by
  by_cases hentity : ∃ x ∈ entities, c = x.1
  · obtain ⟨x, hx, rfl⟩ := hentity
    have hwrite : ∀ x ∈ entities, escapeChar x.1 = x.2 := by decide
    rw [hwrite x hx]
    exact Or.inl hx
  · have hne : ∀ x ∈ entities, c ≠ x.1 := fun x hx heq => hentity ⟨x, hx, heq⟩
    refine Or.inr ⟨?_, ?_⟩
    · rw [isBare, Bool.not_eq_true', List.any_eq_false]
      intro x hx heq
      exact hne x hx (beq_iff_eq.mp heq).symm
    · simp only [entities, List.forall_mem_cons] at hne
      simp [escapeChar, hne]

theorem escape_cons (c : Char) (text : List Char) :
    escape (c :: text) = escapeChar c ++ escape text := rfl

namespace Escaped
variable {c : Char} {front text : List Char}

theorem nil : Escaped [] where
  no_markup := by simp
  entity := by simp

theorem cons_of_isBare (hc : isBare c = true) (h : Escaped text) : Escaped (c :: text) where
  no_markup := by
    rw [List.forall_mem_cons]
    refine ⟨?_, h.no_markup⟩
    intro hmem
    have hmarks : ∀ c ∈ ['<', '>', '"', '\''], isBare c = false := by simp [isBare, entities]
    rw [hmarks c hmem] at hc
    cases hc
  entity := by
    intro back hback
    rcases List.suffix_cons_iff.mp hback with heq | hsuffix
    · rw [← (List.cons.inj heq).1] at hc
      exact absurd hc (by decide)
    · exact h.entity back hsuffix

theorem append_of_isBare (hfront : ∀ c ∈ front, isBare c = true) (h : Escaped text) :
    Escaped (front ++ text) := by
  induction front with
  | nil => exact h
  | cons c front ih =>
    rw [List.forall_mem_cons] at hfront
    exact cons_of_isBare hfront.1 (ih hfront.2)

theorem append_of_entity {x : Char × List Char} (hx : x ∈ entities) (h : Escaped text) :
    Escaped (x.2 ++ text) := by
  have hshape : ∀ x ∈ entities, x.2 = '&' :: x.2.drop 1 ∧ (x.2.drop 1).all isBare = true := by
    decide
  obtain ⟨hhead, htail⟩ := hshape x hx
  have hrest : Escaped (x.2.drop 1 ++ text) := append_of_isBare (List.all_eq_true.mp htail) h
  rw [hhead, List.cons_append]
  constructor
  · rw [List.forall_mem_cons]
    exact ⟨by decide, hrest.no_markup⟩
  · intro back hback
    rcases List.suffix_cons_iff.mp hback with heq | hsuffix
    · refine ⟨x, hx, text, ?_⟩
      rw [heq, ← List.cons_append, ← hhead]
    · exact hrest.entity back hsuffix

end Escaped

theorem escaped_escape (text : List Char) : Escaped (escape text) := by
  induction text with
  | nil => exact Escaped.nil
  | cons c text ih =>
    rw [escape_cons]
    rcases escapeChar_cases c with hentity | ⟨hbare, hitself⟩
    · exact ih.append_of_entity hentity
    · rw [hitself]
      exact ih.cons_of_isBare hbare

theorem unescape_cons {c : Char} (hc : c ≠ '&') (rest : List Char) :
    unescape (c :: rest) = c :: unescape rest := by
  rw [unescape]
  all_goals exact fun _ heq _ => hc heq

theorem unescape_entity_append {x : Char × List Char} (hx : x ∈ entities) (rest : List Char) :
    unescape (x.2 ++ rest) = x.1 :: unescape rest := by
  simp only [entities, List.mem_cons, List.not_mem_nil, or_false] at hx
  rcases hx with rfl | rfl | rfl | rfl | rfl <;> rfl

theorem unescape_escape (text : List Char) : unescape (escape text) = text := by
  induction text with
  | nil => rfl
  | cons c text ih =>
    rw [escape_cons]
    rcases escapeChar_cases c with hentity | ⟨hbare, hitself⟩
    · rw [unescape_entity_append hentity, ih]
    · have hamp : c ≠ '&' := by
        rintro rfl
        exact absurd hbare (by decide)
      rw [hitself, List.singleton_append, unescape_cons hamp, ih]

/-! ## Tokens -/

namespace Piece

/-- What a token is written as. -/
def ofToken (token : Token) : Piece :=
  match token.kind.style? with
  | some tag => span (Html.classes tag.toList) (escape token.lexeme)
  | none => text (escape token.lexeme)

theorem write_ofToken (token : Token) : (ofToken token).write = Html.token token := by
  unfold ofToken Html.token
  cases token.kind.style? <;> rfl

theorem written_ofToken (token : Token) : (ofToken token).written = escape token.lexeme := by
  unfold ofToken
  cases token.kind.style? <;> rfl

/-- The classes of a style tag hold no markup, and they name the kind. -/
theorem classes_of_style? {kind : Kind} {tag : String} (h : kind.style? = some tag) :
    (Html.classes tag.toList).all isBare = true ∧
      kindOf? (Html.classes tag.toList) = some kind := by
  cases kind with
  | plain => cases h
  | _ =>
    cases h
    decide

theorem sound_ofToken (token : Token) : (ofToken token).Sound := by
  unfold ofToken
  split
  · rename_i tag htag
    exact ⟨List.all_eq_true.mp (classes_of_style? htag).1, escaped_escape token.lexeme⟩
  · exact escaped_escape token.lexeme

theorem span?_ofToken (token : Token) :
    (ofToken token).span?.map tokenOf? =
      (Option.guard (·.kind.style?.isSome) token).map some := by
  unfold ofToken
  split
  · rename_i tag htag
    simp [span?, tokenOf?, classes_of_style? htag, unescape_escape, Option.guard, htag]
  · rename_i hnone
    simp [span?, Option.guard, hnone]

end Piece

/-! ## Lines -/

-- A break between lines is taken as a token without a style: the body is then one sequence of
-- pieces, and what holds of tokens needs no second proof for lines.
def lineBreak : Token := ⟨.plain, ['\n']⟩

/-- The tokens of all lines, with breaks between the lines. -/
def flow (rows : List (List Token)) : List Token := [lineBreak].intercalate rows

theorem join_eq_intercalate (rows : List (List Char)) :
    Lines.join rows = ['\n'].intercalate rows := by
  fun_induction Lines.join rows with
  | case1 => rfl
  | case2 row => rw [List.intercalate_singleton]
  | case3 row next rows ih =>
    rw [List.intercalate_cons_cons, ih, List.append_assoc, List.singleton_append]

theorem flatMap_flow {f : Token → List Char} (hbreak : f lineBreak = ['\n'])
    (rows : List (List Token)) :
    (flow rows).flatMap f = ['\n'].intercalate (rows.map (List.flatMap f)) := by
  unfold flow
  induction rows with
  | nil => rfl
  | cons row rows ih =>
    cases rows with
    | nil => simp
    | cons next rows =>
      rw [List.intercalate_cons_cons, List.flatMap_append, List.flatMap_append, ih,
        List.map_cons, List.map_cons, List.map_cons, List.intercalate_cons_cons,
        List.flatMap_singleton, hbreak]

theorem filter_flow (rows : List (List Token)) :
    (flow rows).filter (·.kind.style?.isSome) = rows.flatten.filter (·.kind.style?.isSome) := by
  unfold flow
  induction rows with
  | nil => rfl
  | cons row rows ih =>
    cases rows with
    | nil => simp
    | cons next rows =>
      have hbreak : [lineBreak].filter (·.kind.style?.isSome) = [] := rfl
      rw [List.intercalate_cons_cons, List.filter_append, List.filter_append, hbreak, ih,
        List.append_nil, ← List.filter_append]
      rfl

theorem flow_write (rows : List (List Token)) :
    Lines.join (rows.map line) = ((flow rows).map Piece.ofToken).flatMap Piece.write := by
  have hwrite : (fun token => (Piece.ofToken token).write) = Html.token :=
    funext Piece.write_ofToken
  rw [List.flatMap_map, hwrite, flatMap_flow rfl, join_eq_intercalate]
  rfl

theorem unescape_written (tokens : List Token) :
    unescape ((tokens.map Piece.ofToken).flatMap Piece.written) = Token.text tokens := by
  have hwritten : (fun token => (Piece.ofToken token).written) = fun token => escape token.lexeme :=
    funext Piece.written_ofToken
  rw [List.flatMap_map, hwritten, ← unescape_escape (Token.text tokens), escape, Token.text,
    List.flatMap_assoc]
  rfl

theorem tokenOf?_spans (tokens : List Token) :
    ((tokens.map Piece.ofToken).filterMap Piece.span?).map tokenOf? =
      (tokens.filter (·.kind.style?.isSome)).map some := by
  have hspan : (fun token => (Piece.ofToken token).span?.map tokenOf?) =
      fun token => (Option.guard (·.kind.style?.isSome) token).map some :=
    funext Piece.span?_ofToken
  rw [List.map_filterMap, List.filterMap_map, ← List.filterMap_eq_filter, List.map_filterMap]
  exact congrArg (tokens.filterMap ·) hspan

/-- The body shows the document: it is a flat sequence of spans and text that hold no other markup,
its text is that of the lines, its spans are the styled tokens, and no tag stands in it but those
around its spans. -/
structure Shows (body : List Char) (doc : Document) : Prop where
  flat : ∃ pieces : List Piece, body = pieces.flatMap Piece.write ∧ ∀ piece ∈ pieces, piece.Sound
  text_eq : unescape (deleteTags body) = ['\n'].intercalate (doc.lineTokens.map Token.text)
  tokens_eq : (spans body).map tokenOf? =
    (doc.lineTokens.flatten.filter (·.kind.style?.isSome)).map some
  tags_eq : tags body = (spans body).flatMap spanTags

end Html

/-- The markup of a document is well formed and gives back the text and the styles, whatever its
lines hold. -/
theorem Document.toHtml_shows (doc : Document) :
    ∃ body, doc.toHtml = "<pre class=\"cm-s-bogl\">".toList ++ body ++ "</pre>\n".toList ∧
      Html.Shows body doc := by
  have hsound : ∀ piece ∈ (Html.flow doc.lineTokens).map Html.Piece.ofToken, piece.Sound := by
    intro piece hpiece
    obtain ⟨token, -, rfl⟩ := List.mem_map.mp hpiece
    exact Html.Piece.sound_ofToken token
  refine ⟨_, rfl, ?_⟩
  rw [Html.flow_write]
  constructor
  · exact ⟨_, rfl, hsound⟩
  · rw [Html.deleteTags_flatMap_write hsound, Html.unescape_written]
    exact Html.flatMap_flow rfl doc.lineTokens
  · rw [Html.spans_flatMap_write hsound, Html.tokenOf?_spans, Html.filter_flow]
  · rw [Html.tags_flatMap_write hsound, Html.spans_flatMap_write hsound]

end BoardHighlight
