import MotionRack.Document.Markup
import MotionRack.Text.Split
import Mathlib.Data.List.Basic

/-!
# Tags as they are written

How a document may be written: names of the characters that markup allows in them, attributes with
blanks at will and either quote, values in which five characters go by their names, and text and
comments between the tags. In whatever way a tag is written, the reader comes to the same event.
-/
namespace MotionRack

namespace Entity

/-! ### Values -/

/-- How a character of a value is written. -/
def escape : Char → List Char
  | '&' => "&amp;".toList
  | '<' => "&lt;".toList
  | '>' => "&gt;".toList
  | '"' => "&quot;".toList
  | '\'' => "&apos;".toList
  | c => [c]

theorem decodeFrom?_escape (c : Char) (rest : List Char) :
    decodeFrom? none (escape c ++ rest) = (decodeFrom? none rest).map (c :: ·) := by
  unfold escape
  split
  case h_6 hamp _ _ _ _ =>
    rw [List.singleton_append, decodeFrom?, if_neg hamp]
  all_goals rfl

theorem decode?_flatMap_escape (value : List Char) :
    decode? (value.flatMap escape) = some value := by
  rw [decode?]
  induction value with
  | nil => rfl
  | cons c value ih => rw [List.flatMap_cons, decodeFrom?_escape, ih, Option.map_some]

theorem not_mem_flatMap_escape {quote : Char} (h : quote = '"' ∨ quote = '\'') (value : List Char) :
    quote ∉ value.flatMap escape := by
  have hescape : ∀ c, quote ∉ escape c := by
    intro c
    unfold escape
    split
    case h_6 hquote hapos =>
      rw [List.mem_singleton]
      rintro rfl
      exact h.elim hquote hapos
    all_goals rcases h with rfl | rfl <;> decide
  rw [List.mem_flatMap]
  rintro ⟨c, -, hc⟩
  exact hescape c hc

end Entity

namespace Markup

/-! ### Names -/

/-- The ranges of code points that a name may start with, both ends included. -/
def nameStartRanges : List (Nat × Nat) :=
  [(0x3A, 0x3A), (0x41, 0x5A), (0x5F, 0x5F), (0x61, 0x7A), (0xC0, 0xD6), (0xD8, 0xF6),
   (0xF8, 0x2FF), (0x370, 0x37D), (0x37F, 0x1FFF), (0x200C, 0x200D), (0x2070, 0x218F),
   (0x2C00, 0x2FEF), (0x3001, 0xD7FF), (0xF900, 0xFDCF), (0xFDF0, 0xFFFD), (0x10000, 0xEFFFF)]

/-- The ranges of code points that a name may have behind its start. -/
def nameRanges : List (Nat × Nat) :=
  nameStartRanges ++ [(0x2D, 0x2E), (0x30, 0x39), (0xB7, 0xB7), (0x300, 0x36F), (0x203F, 0x2040)]

/-- Whether the code point of a character is in one of some ranges. -/
def isIn (ranges : List (Nat × Nat)) (c : Char) : Bool :=
  ranges.any fun (low, high) => low ≤ c.toNat && c.toNat ≤ high

/-- Whether a text is a name. -/
def isName (name : String) : Bool :=
  match name.toList with
  | [] => false
  | c :: cs => isIn nameStartRanges c && cs.all (isIn nameRanges)

/-- The characters that mean something inside a tag. None of them is in a name. -/
def marks : List Char :=
  [' ', '\t', '\r', '\n', '<', '>', '/', '=', '"', '\'', '&', '!', '?']

theorem isIn_nameRanges_eq_false {c : Char} (h : c ∈ marks) : isIn nameRanges c = false := by
  have hall : marks.all (!isIn nameRanges ·) = true := by decide
  simpa using List.all_eq_true.mp hall c h

theorem isName_spec {name : String} (h : isName name = true) :
    name.toList ≠ [] ∧ ∀ c ∈ name.toList, c ∉ marks := by
  unfold isName at h
  split at h
  next => cases h
  next c cs hname =>
    obtain ⟨hc, hcs⟩ := Bool.and_eq_true_iff.mp h
    have hfirst : isIn nameRanges c = true := by
      rw [isIn, nameRanges, List.any_append, Bool.or_eq_true]
      exact Or.inl hc
    refine ⟨by simp [hname], ?_⟩
    rw [hname, List.forall_mem_cons]
    have hplain : ∀ d, isIn nameRanges d = true → d ∉ marks := by
      intro d hd hmark
      rw [isIn_nameRanges_eq_false hmark] at hd
      cases hd
    exact ⟨hplain c hfirst, fun d hd => hplain d (List.all_eq_true.mp hcs d hd)⟩

theorem isBlank_eq_false {c : Char} (h : c ∉ marks) : isBlank c = false := by
  rw [Bool.eq_false_iff]
  intro hblank
  apply h
  simp only [isBlank, Bool.or_eq_true, beq_iff_eq] at hblank
  rcases hblank with ((rfl | rfl) | rfl) | rfl <;> decide

theorem ne_of_isBlank {c d : Char} (hc : isBlank c = true) (hd : isBlank d = false) : c ≠ d := by
  rintro rfl
  rw [hc] at hd
  cases hd

/-! ### Tags -/

/-- Whether a text is nothing but blanks. -/
def IsBlanks (cs : List Char) : Prop := ∀ c ∈ cs, isBlank c = true

instance : DecidablePred IsBlanks := fun cs => List.decidableBAll _ cs

/-- How the attributes of a tag may be written: each behind a blank at least, with blanks on both
sides of the `=`, and in quotes of either kind. -/
inductive Writes : Attributes → List Char → Prop
  | nil : Writes [] []
  | cons {key value : String} {attributes : Attributes} {lead before after text : List Char}
      {quote : Char} : lead ≠ [] → IsBlanks lead → IsBlanks before → IsBlanks after →
      quote = '"' ∨ quote = '\'' → Writes attributes text →
      Writes ((key, value) :: attributes)
        (lead ++ (key.toList ++ (before ++ '=' ::
          (after ++ quote :: (value.toList.flatMap Entity.escape ++ quote :: text)))))

/-- How the tag of an event may be written. -/
inductive Spells : Event → List Char → Prop
  | opening {name : String} {attributes : Attributes} {text trail : List Char} :
      Writes attributes text → IsBlanks trail →
      Spells (.opening name attributes) ('<' :: (name.toList ++ (text ++ (trail ++ ['>']))))
  | empty {name : String} {attributes : Attributes} {text trail : List Char} :
      Writes attributes text → IsBlanks trail →
      Spells (.empty name attributes) ('<' :: (name.toList ++ (text ++ (trail ++ ['/', '>']))))
  | closing {name : String} {trail : List Char} : IsBlanks trail →
      Spells (.closing name) ('<' :: '/' :: (name.toList ++ (trail ++ ['>'])))

/-- What may stand between tags: text without markup, and comments. A comment does not hold the
mark of its end before its end. -/
inductive IsGap : List Char → Prop
  | nil : IsGap []
  | text {c : Char} {cs : List Char} : c ≠ '<' → IsGap cs → IsGap (c :: cs)
  | comment {body cs : List Char} : ¬ ['-', '-', '>'] <:+: body ++ ['-', '-'] → IsGap cs →
      IsGap ('<' :: '!' :: '-' :: '-' :: (body ++ '-' :: '-' :: '>' :: cs))

/-- Whether the name and the keys of an event are names, and no key is there twice. -/
def Event.IsNamed : Event → Prop
  | opening name attributes | empty name attributes =>
    isName name = true ∧ (∀ a ∈ attributes, isName a.1 = true) ∧ (attributes.map (·.1)).Nodup
  | closing name => isName name = true
  | broken => False

/-! ### Where a part of a tag ends -/

/-- Whether a text goes on, if at all, with a character that a condition does not hold of. -/
def Stops (p : Char → Bool) (cs : List Char) : Prop := ∀ c ∈ cs.head?, p c = false

section

variable {p : Char → Bool} {cs rest : List Char} (hcs : ∀ c ∈ cs, p c = true)
  (hrest : Stops p rest)

include hcs hrest

theorem takeWhile_append_of_stops : (cs ++ rest).takeWhile p = cs := by
  rw [List.takeWhile_append_of_pos hcs]
  cases rest with
  | nil => simp
  | cons c rest => rw [List.takeWhile_cons_of_neg (by simp [hrest c rfl]), List.append_nil]

theorem dropWhile_append_of_stops : (cs ++ rest).dropWhile p = rest := by
  rw [List.dropWhile_append_of_pos hcs]
  cases rest with
  | nil => rfl
  | cons c rest => rw [List.dropWhile_cons_of_neg (by simp [hrest c rfl])]

end

theorem Stops.nil {p : Char → Bool} : Stops p [] := by
  rintro _ ⟨⟩

theorem Stops.cons {p : Char → Bool} {c : Char} (h : p c = false) (cs : List Char) :
    Stops p (c :: cs) := by
  rintro _ ⟨⟩
  exact h

theorem Stops.append_cons {p : Char → Bool} {cs : List Char} (hcs : ∀ c ∈ cs, p c = false)
    {c : Char} (h : p c = false) (rest : List Char) : Stops p (cs ++ c :: rest) := by
  cases cs with
  | nil => exact Stops.cons h rest
  | cons d cs => exact Stops.cons (hcs d List.mem_cons_self) _

/-! ### Attributes -/

theorem attribute?_written {k : Char} {ks before after raw rest : List Char} {quote : Char}
    (hkey : ∀ c ∈ ks, c ∉ marks) (hbefore : IsBlanks before) (hafter : IsBlanks after)
    (hquote : quote = '"' ∨ quote = '\'') (hraw : quote ∉ raw) :
    attribute? k (ks ++ (before ++ '=' :: (after ++ quote :: (raw ++ quote :: rest)))) =
      some ((String.ofList (k :: ks), raw), rest) := by
  have hisKey : ∀ c ∈ ks, (c != '=' && !isBlank c) = true := by
    intro c hc
    have hequals : c ≠ '=' := fun h => hkey c hc (h ▸ by decide)
    simp [hequals, isBlank_eq_false (hkey c hc)]
  have hkeyEnds : Stops (fun c => c != '=' && !isBlank c)
      (before ++ '=' :: (after ++ quote :: (raw ++ quote :: rest))) :=
    .append_cons (fun c hc => by simp [hbefore c hc]) (by simp) _
  have hequalsStops : Stops isBlank ('=' :: (after ++ quote :: (raw ++ quote :: rest))) :=
    .cons rfl _
  have hquoteStops : Stops isBlank (quote :: (raw ++ quote :: rest)) :=
    .cons (by rcases hquote with rfl | rfl <;> rfl) _
  have hvalue := Split.forall_bne_of_notMem hraw
  have hvalueEnds : Stops (· != quote) (quote :: rest) := .cons (by simp) _
  simp only [attribute?, dropWhile_append_of_stops hisKey hkeyEnds,
    takeWhile_append_of_stops hisKey hkeyEnds,
    dropWhile_append_of_stops hbefore hequalsStops,
    dropWhile_append_of_stops hafter hquoteStops, if_pos hquote,
    dropWhile_append_of_stops hvalue hvalueEnds, takeWhile_append_of_stops hvalue hvalueEnds]

theorem attributes?_cons {seen : List String} {cs rest raw after value : List Char} {first : Char}
    {key : String} (hblank : cs.dropWhile isBlank = first :: rest)
    (hattribute : attribute? first rest = some ((key, raw), after)) (hkey : key ∉ seen)
    (hvalue : Entity.decode? raw = some value) :
    attributes? seen cs =
      (attributes? (key :: seen) after).map ((key, String.ofList value) :: ·) := by
  rw [attributes?]
  split
  next h =>
    rw [hblank] at h
    cases h
  next first' rest' h =>
    rw [hblank] at h
    cases h
    split
    next h =>
      rw [hattribute] at h
      cases h
    next key' raw' after' h =>
      rw [hattribute] at h
      cases h
      rw [if_neg (by simpa using hkey), hvalue]
      cases attributes? (key :: seen) after <;> rfl

theorem attributes?_blanks {seen : List String} {cs : List Char} (h : IsBlanks cs) :
    attributes? seen cs = some [] := by
  have hnone : cs.dropWhile isBlank = [] := by
    rw [← List.append_nil cs, dropWhile_append_of_stops h .nil]
  rw [attributes?]
  split
  next => rfl
  next h =>
    rw [hnone] at h
    cases h

/-- Attributes are read back however they are written. -/
theorem attributes?_written {attributes : Attributes} {text trail : List Char} {seen : List String}
    (h : Writes attributes text) (htrail : IsBlanks trail)
    (hnames : ∀ a ∈ attributes, isName a.1 = true) (hnodup : (attributes.map (·.1)).Nodup)
    (hseen : ∀ a ∈ attributes, a.1 ∉ seen) :
    attributes? seen (text ++ trail) = some attributes := by
  induction h generalizing seen with
  | nil => exact attributes?_blanks htrail
  | @cons key value attributes lead before after text quote _ hblank hbefore hafter hquote _ ih =>
    obtain ⟨hname, hnames⟩ := List.forall_mem_cons.mp hnames
    obtain ⟨hkey, hseen⟩ := List.forall_mem_cons.mp hseen
    obtain ⟨hother, hnodup⟩ := List.nodup_cons.mp hnodup
    obtain ⟨hne, hplain⟩ := isName_spec hname
    obtain ⟨k, ks, hkeyText⟩ := List.exists_cons_of_ne_nil hne
    rw [hkeyText, List.forall_mem_cons] at hplain
    have hfront : Stops isBlank (k :: (ks ++ (before ++ '=' :: (after ++ quote ::
        (value.toList.flatMap Entity.escape ++ quote :: (text ++ trail)))))) :=
      .cons (isBlank_eq_false hplain.1) _
    have hrest : attributes? (key :: seen) (text ++ trail) = some attributes := by
      apply ih hnames hnodup
      intro a ha
      rw [List.mem_cons, not_or]
      exact ⟨fun hsame => hother (hsame ▸ List.mem_map_of_mem (f := (·.1)) ha), hseen a ha⟩
    rw [List.append_assoc, hkeyText]
    simp only [List.append_assoc, List.cons_append]
    rw [attributes?_cons (dropWhile_append_of_stops hblank hfront)
      (attribute?_written hplain.2 hbefore hafter hquote (Entity.not_mem_flatMap_escape hquote _))
      (by rwa [← hkeyText, String.ofList_toList]) (Entity.decode?_flatMap_escape _)]
    rw [← hkeyText, String.ofList_toList, String.ofList_toList, hrest, Option.map_some]

/-! ### The inside of a tag -/

theorem Writes.stops {attributes : Attributes} {text trail : List Char} (h : Writes attributes text)
    (htrail : IsBlanks trail) : Stops (!isBlank ·) (text ++ trail) := by
  have hblanks : ∀ {cs : List Char} (rest : List Char), cs ≠ [] → IsBlanks cs →
      Stops (!isBlank ·) (cs ++ rest) := by
    intro cs rest hne hcs
    obtain ⟨c, cs, rfl⟩ := List.exists_cons_of_ne_nil hne
    exact .cons (by simp [hcs c List.mem_cons_self]) _
  cases h with
  | nil =>
    by_cases hne : trail = []
    · rw [hne]
      exact .nil
    · simpa using hblanks [] hne htrail
  | cons hlead hblank => simpa only [List.append_assoc] using hblanks _ hlead hblank

/-- The attributes of a tag do not end with a slash. -/
theorem Writes.getLast?_ne {attributes : Attributes} {text : List Char}
    (h : Writes attributes text) : text.getLast? ≠ some '/' := by
  induction h with
  | nil => simp
  | @cons key value attributes lead before after text quote _ _ _ _ hquote _ ih =>
    have hlast : (quote :: text).getLast? ≠ some '/' := by
      rw [List.getLast?_cons]
      cases htext : text.getLast? with
      | none => rcases hquote with rfl | rfl <;> simp
      | some c => simpa [htext] using ih
    have hfront : lead ++ (key.toList ++ (before ++ '=' ::
          (after ++ quote :: (value.toList.flatMap Entity.escape ++ quote :: text)))) =
        (lead ++ (key.toList ++ (before ++ '=' ::
          (after ++ quote :: value.toList.flatMap Entity.escape)))) ++ quote :: text := by
      simp only [List.append_assoc, List.cons_append]
    rw [hfront, List.getLast?_append_of_ne_nil _ (List.cons_ne_nil quote text)]
    exact hlast

theorem getLast?_append_ne {cs ds : List Char} {c : Char} (hcs : cs.getLast? ≠ some c)
    (hds : ds.getLast? ≠ some c) : (cs ++ ds).getLast? ≠ some c := by
  rw [List.getLast?_append]
  cases hlast : ds.getLast? with
  | none => simpa [hlast] using hcs
  | some d => simpa [hlast] using hds

theorem getLast?_ne_of_not_mem {cs : List Char} {c : Char} (h : c ∉ cs) : cs.getLast? ≠ some c :=
  fun hlast => h (List.mem_of_getLast? hlast)

section

variable {name : String} {attributes : Attributes} {text trail : List Char}
  (hname : isName name = true) (hwrites : Writes attributes text) (htrail : IsBlanks trail)
  (hkeys : ∀ a ∈ attributes, isName a.1 = true) (hnodup : (attributes.map (·.1)).Nodup)

include hname hwrites htrail hkeys hnodup

/-- The name and the attributes are found in a tag. -/
theorem parts_written :
    (name.toList ++ (text ++ trail)).takeWhile (!isBlank ·) = name.toList ∧
      attributes? [] ((name.toList ++ (text ++ trail)).dropWhile (!isBlank ·)) =
        some attributes := by
  have hplain : ∀ c ∈ name.toList, (!isBlank c) = true := fun c hc => by
    rw [isBlank_eq_false ((isName_spec hname).2 c hc), Bool.not_false]
  have hstops := hwrites.stops htrail
  rw [takeWhile_append_of_stops hplain hstops, dropWhile_append_of_stops hplain hstops]
  exact ⟨rfl, attributes?_written hwrites htrail hkeys hnodup (by simp)⟩

theorem openingTag_written :
    openingTag (name.toList ++ (text ++ trail)) = .opening name attributes := by
  obtain ⟨hfound, hattributes⟩ := parts_written hname hwrites htrail hkeys hnodup
  have hslash : (name.toList ++ (text ++ trail)).getLast? ≠ some '/' := by
    refine getLast?_append_ne ?_ (getLast?_append_ne hwrites.getLast?_ne ?_)
    · exact getLast?_ne_of_not_mem fun h => (isName_spec hname).2 _ h (by decide)
    · exact getLast?_ne_of_not_mem fun h => ne_of_isBlank (htrail _ h) (by rfl) rfl
  have hopen : ((name.toList ++ (text ++ trail)).getLast? == some '/') = false := by
    simpa using hslash
  simp only [openingTag, hopen, Bool.false_eq_true, if_false, hattributes, hfound,
    String.ofList_toList]

theorem openingTag_written_empty :
    openingTag (name.toList ++ (text ++ (trail ++ ['/']))) = .empty name attributes := by
  obtain ⟨hfound, hattributes⟩ := parts_written hname hwrites htrail hkeys hnodup
  have hassoc : name.toList ++ (text ++ (trail ++ ['/'])) =
      (name.toList ++ (text ++ trail)) ++ ['/'] := by simp only [List.append_assoc]
  have hclosed : ((name.toList ++ (text ++ trail) ++ ['/']).getLast? == some '/') = true := by simp
  simp only [openingTag, hassoc, hclosed, if_true, List.dropLast_concat, hattributes, hfound,
    String.ofList_toList]

end

theorem closingTag_written {name : String} {trail : List Char} (hname : isName name = true)
    (htrail : IsBlanks trail) : closingTag (name.toList ++ trail) = .closing name := by
  obtain ⟨hne, hplain⟩ := isName_spec hname
  have hstops : Stops isBlank name.toList.reverse := by
    intro c hc
    exact isBlank_eq_false (hplain c (List.mem_reverse.mp (List.mem_of_mem_head? hc)))
  have hback : ∀ c ∈ trail.reverse, isBlank c = true := by simpa [IsBlanks] using htrail
  rw [closingTag, List.reverse_append, dropWhile_append_of_stops hback hstops,
    List.reverse_reverse]
  simp [hne]

/-! ### Where a tag ends -/

/-- Whether a tag does not end within a text, nor in quotes at its end. -/
def NoEnd (cs : List Char) : Prop :=
  ∀ rest, tagEnd? none (cs ++ '>' :: rest) = some (cs, rest)

theorem tagEnd?_quoted {quote : Char} {cs : List Char} (h : quote ∉ cs) (rest : List Char) :
    tagEnd? (some quote) (cs ++ quote :: rest) =
      (tagEnd? none rest).map fun found => (cs ++ quote :: found.1, found.2) := by
  induction cs with
  | nil => simp [tagEnd?]
  | cons c cs ih =>
    obtain ⟨hc, hcs⟩ := not_or.mp (List.mem_cons.not.mp h)
    rw [List.cons_append, tagEnd?, if_neg (Ne.symm hc), ih hcs, Option.map_map]
    rfl

namespace NoEnd

theorem nil : NoEnd [] := fun rest => by simp [tagEnd?]

theorem cons {c : Char} {cs : List Char} (hc : c ∉ ['>', '"', '\'']) (h : NoEnd cs) :
    NoEnd (c :: cs) := by
  intro rest
  simp only [List.mem_cons, List.not_mem_nil, or_false, not_or] at hc
  rw [List.cons_append, tagEnd?, if_neg hc.1, if_neg (by simp [hc.2]), h rest, Option.map_some]

theorem append {cs ds : List Char} (hcs : ∀ c ∈ cs, c ∉ ['>', '"', '\'']) (h : NoEnd ds) :
    NoEnd (cs ++ ds) := by
  induction cs with
  | nil => exact h
  | cons c cs ih =>
    obtain ⟨hc, hcs⟩ := List.forall_mem_cons.mp hcs
    exact cons hc (ih hcs)

theorem quoted {quote : Char} (hquote : quote = '"' ∨ quote = '\'') {cs ds : List Char}
    (hcs : quote ∉ cs) (h : NoEnd ds) : NoEnd (quote :: (cs ++ quote :: ds)) := by
  intro rest
  have hne : quote ≠ '>' := by rcases hquote with rfl | rfl <;> decide
  rw [List.cons_append, tagEnd?, if_neg hne, if_pos hquote, List.append_assoc, List.cons_append,
    tagEnd?_quoted hcs, h rest]
  rfl

theorem blanks {cs ds : List Char} (hcs : IsBlanks cs) (h : NoEnd ds) : NoEnd (cs ++ ds) := by
  apply append _ h
  intro c hc hmem
  have hmarks : ∀ d ∈ ['>', '"', '\''], isBlank d = false := by simp [isBlank]
  exact ne_of_isBlank (hcs c hc) (hmarks c hmem) rfl

theorem name {name : String} (hname : isName name = true) {ds : List Char} (h : NoEnd ds) :
    NoEnd (name.toList ++ ds) := by
  apply append _ h
  intro c hc hmem
  have hmarks : ∀ d ∈ ['>', '"', '\''], d ∈ marks := by simp [marks]
  exact (isName_spec hname).2 c hc (hmarks c hmem)

theorem writes {attributes : Attributes} {text ds : List Char} (hwrites : Writes attributes text)
    (hkeys : ∀ a ∈ attributes, isName a.1 = true) (h : NoEnd ds) : NoEnd (text ++ ds) := by
  induction hwrites with
  | nil => exact h
  | cons _ hlead hbefore hafter hquote _ ih =>
    obtain ⟨hkey, hkeys⟩ := List.forall_mem_cons.mp hkeys
    simp only [List.append_assoc, List.cons_append]
    exact blanks hlead (name hkey (blanks hbefore (cons (by decide) (blanks hafter
      (quoted hquote (Entity.not_mem_flatMap_escape hquote _) (ih hkeys))))))

end NoEnd

/-! ### Events -/

/-- What a name starts with tells an opening tag from other markup. -/
theorem next_opening {name : String} (hname : isName name = true) {cs content rest : List Char}
    (hend : tagEnd? none (name.toList ++ cs) = some (content, rest)) :
    next ('<' :: (name.toList ++ cs)) = (some (openingTag content), rest) := by
  obtain ⟨hne, hplain⟩ := isName_spec hname
  obtain ⟨k, ks, hks⟩ := List.exists_cons_of_ne_nil hne
  have hk : k ∉ marks := hplain k (by simp [hks])
  rw [hks, List.cons_append] at hend ⊢
  rw [next, hend]
  -- The name does not start like a declaration, an instruction or a closing tag.
  all_goals
    intro _ h
    rw [(List.cons.inj h).1] at hk
    exact hk (by decide)

theorem next_closing {cs content rest : List Char} (hend : tagEnd? none cs = some (content, rest)) :
    next ('<' :: '/' :: cs) = (some (closingTag content), rest) := by
  rw [next, hend]

theorem events_of_next {c : Char} {cs rest : List Char} {event : Event}
    (h : next (c :: cs) = (some event, rest)) : events (c :: cs) = event :: events rest := by
  rw [events, h]

/-- The tag of an event is read as that event. -/
theorem events_spells {event : Event} {tag : List Char} (h : Spells event tag)
    (hnamed : event.IsNamed) (rest : List Char) : events (tag ++ rest) = event :: events rest := by
  cases h with
  | @opening name attributes text trail hwrites htrail =>
    obtain ⟨hname, hkeys, hnodup⟩ := hnamed
    have hend := NoEnd.name hname (.writes hwrites hkeys (.blanks htrail .nil)) rest
    simp only [List.append_nil, List.append_assoc] at hend
    simp only [List.cons_append, List.append_assoc, List.nil_append]
    rw [events_of_next (next_opening hname hend),
      openingTag_written hname hwrites htrail hkeys hnodup]
  | @empty name attributes text trail hwrites htrail =>
    obtain ⟨hname, hkeys, hnodup⟩ := hnamed
    have hslash : NoEnd ['/'] := .cons (by decide) .nil
    have hend := NoEnd.name hname (.writes hwrites hkeys (.blanks htrail hslash)) rest
    simp only [List.append_assoc] at hend
    simp only [List.cons_append, List.append_assoc, List.nil_append] at hend ⊢
    rw [events_of_next (next_opening hname hend),
      openingTag_written_empty hname hwrites htrail hkeys hnodup]
  | @closing name trail htrail =>
    have hend := NoEnd.name hnamed (.blanks htrail .nil) rest
    simp only [List.append_nil, List.append_assoc] at hend
    simp only [List.cons_append, List.append_assoc, List.nil_append]
    rw [events_of_next (next_closing hend), closingTag_written hnamed htrail]

/-! ### Between tags -/

theorem events_text {c : Char} (hc : c ≠ '<') (cs : List Char) : events (c :: cs) = events cs := by
  have hskip : ∀ (d : Char) (ds : List Char), d ≠ '<' →
      events (d :: ds) = events (ds.dropWhile (· != '<')) := by
    intro d ds hd
    have hnext : next (d :: ds) = (none, ds.dropWhile (· != '<')) := by
      rw [next] <;> intros <;> exact hd ‹_›
    rw [events, hnext]
  rw [hskip c cs hc]
  cases cs with
  | nil => rfl
  | cons d ds =>
    by_cases hd : d = '<'
    · rw [List.dropWhile_cons_of_neg (by simp [hd])]
    · rw [List.dropWhile_cons_of_pos (by simp [hd]), hskip d ds hd]

/-- A comment is passed over up to its first end. -/
theorem skipPast?_comment {last body : List Char} (rest : List Char)
    (h : ¬ ['-', '-', '>'] <:+: last.reverse ++ body ++ ['-', '-']) :
    skipPast? ['-', '-'] last (body ++ '-' :: '-' :: '>' :: rest) = some rest := by
  induction body generalizing last with
  | nil => simp [skipPast?]
  | cons c body ih =>
    have hnot : ¬ (c = '>' ∧ ['-', '-'].isPrefixOf last = true) := by
      rintro ⟨rfl, hlast⟩
      obtain ⟨front, rfl⟩ := List.isPrefixOf_iff_prefix.mp hlast
      exact h ⟨front.reverse, body ++ ['-', '-'], by simp⟩
    rw [List.cons_append, skipPast?, if_neg hnot]
    apply ih
    simpa using h

theorem isGap_of_not_mem {cs : List Char} (h : '<' ∉ cs) : IsGap cs := by
  induction cs with
  | nil => exact .nil
  | cons c cs ih =>
    obtain ⟨hc, hcs⟩ := not_or.mp (List.mem_cons.not.mp h)
    exact .text (Ne.symm hc) (ih hcs)

theorem events_gap {gap : List Char} (h : IsGap gap) (rest : List Char) :
    events (gap ++ rest) = events rest := by
  induction h with
  | nil => rfl
  | text hc _ ih => rw [List.cons_append, events_text hc, ih]
  | @comment body cs hbody _ ih =>
    have hskip : skipPast? ['-', '-'] [] (body ++ '-' :: '-' :: '>' :: (cs ++ rest)) =
        some (cs ++ rest) := skipPast?_comment (cs ++ rest) hbody
    have hnext : next ('<' :: '!' :: '-' :: '-' :: (body ++ '-' :: '-' :: '>' :: (cs ++ rest))) =
        (none, cs ++ rest) := by
      rw [next, skipDeclaration?, hskip]
    simp only [List.cons_append, List.append_assoc]
    rw [events, hnext, ih]

end Markup
end MotionRack
