import MotionRack.Document.Entity
import MotionRack.Text.Fold

/-!
# Markup

The tags of a document text, in order. Everything else (text, comments, character data, processing
instructions, a document type) is passed over. What cannot be read ends the sequence with `broken`.
The reader is lenient: names may hold any characters but blanks, and attributes need no blank
between them.
-/
namespace MotionRack.Markup

/-- The attributes of a tag, in order. -/
abbrev Attributes := List (String × String)

/-- What a document text holds for the shape of the tree. -/
inductive Event
  | opening (name : String) (attributes : Attributes)
  | empty (name : String) (attributes : Attributes)
  | closing (name : String)
  | broken
  deriving DecidableEq, Repr

/-- The blanks that separate the parts of a tag. -/
def isBlank (c : Char) : Bool := c == ' ' || c == '\t' || c == '\r' || c == '\n'

/-! ### Inside a tag -/

theorem length_dropWhile_le (p : Char → Bool) (cs : List Char) :
    (cs.dropWhile p).length ≤ cs.length := (List.dropWhile_sublist p).length_le

/-- One attribute and what follows it: a key up to a blank or `=`, then `=`, then a quoted value. -/
def attribute? (first : Char) (cs : List Char) : Option ((String × List Char) × List Char) :=
  let isKey (c : Char) : Bool := c != '=' && !isBlank c
  match (cs.dropWhile isKey).dropWhile isBlank with
  | '=' :: rest =>
    match rest.dropWhile isBlank with
    | quote :: rest =>
      if quote = '"' ∨ quote = '\'' then
        match rest.dropWhile (· != quote) with
        | _ :: after =>
          some ((String.ofList (first :: cs.takeWhile isKey), rest.takeWhile (· != quote)), after)
        | [] => none
      else none
    | [] => none
  | _ => none

theorem length_of_attribute? {first : Char} {cs after : List Char} {a : String × List Char}
    (h : attribute? first cs = some (a, after)) : after.length < cs.length := by
  unfold attribute? at h
  dsimp only at h
  split at h
  next rest h1 =>
    have l1 := congrArg List.length h1
    have b1 := length_dropWhile_le isBlank
      (cs.dropWhile fun c => c != '=' && !isBlank c)
    have b2 := length_dropWhile_le (fun c => c != '=' && !isBlank c) cs
    split at h
    next quote rest2 h2 =>
      have l2 := congrArg List.length h2
      have b3 := length_dropWhile_le isBlank rest
      split at h
      · split at h
        next q after' h3 =>
          have l3 := congrArg List.length h3
          have b4 := length_dropWhile_le (· != quote) rest2
          cases h
          simp only [List.length_cons] at l1 l2 l3
          omega
        · cases h
      · cases h
    · cases h
  · cases h

/-- The attributes of a tag. A key may stand only once; `seen` are the keys before. -/
def attributes? (seen : List String) (cs : List Char) : Option Attributes :=
  match _h : cs.dropWhile isBlank with
  | [] => some []
  | first :: rest =>
    match _ha : attribute? first rest with
    | none => none
    | some ((key, raw), after) =>
      if seen.contains key then none
      else do
        let value ← Entity.decode? raw
        return (key, String.ofList value) :: (← attributes? (key :: seen) after)
termination_by cs.length
decreasing_by
  have h1 := congrArg List.length _h
  have h2 := length_dropWhile_le isBlank cs
  have h3 := length_of_attribute? _ha
  simp only [List.length_cons] at h1
  omega

/-- The event of what stands between `<` and `>` in an opening tag; a slash at the end closes the
element at once. -/
def openingTag (content : List Char) : Event :=
  let selfClosed := content.getLast? == some '/'
  let content := if selfClosed then content.dropLast else content
  match attributes? [] (content.dropWhile (!isBlank ·)) with
  | none => .broken
  | some attributes =>
    let name := String.ofList (content.takeWhile (!isBlank ·))
    if selfClosed then .empty name attributes else .opening name attributes

/-- The event of what stands between `</` and `>`. Blanks behind the name do not count, unless
there is nothing but blanks. -/
def closingTag (content : List Char) : Event :=
  let name := (content.reverse.dropWhile isBlank).reverse
  .closing (String.ofList (if name.isEmpty then content else name))

/-! ### Between tags -/

/-- The content up to the first `>` that is not in quotes, and what follows it. -/
def tagEnd? : Option Char → List Char → Option (List Char × List Char)
  | _, [] => none
  | none, c :: rest =>
    if c = '>' then some ([], rest)
    else (tagEnd? (if c = '"' ∨ c = '\'' then some c else none) rest).map fun (content, after) =>
      (c :: content, after)
  | some quote, c :: rest =>
    (tagEnd? (if c = quote then none else some quote) rest).map fun (content, after) =>
      (c :: content, after)

/-- What follows the first `>` behind a given mark; `last` are the characters before, the nearest
first. -/
def skipPast? (mark : List Char) (last : List Char) : List Char → Option (List Char)
  | [] => none
  | c :: rest =>
    if c = '>' ∧ mark.isPrefixOf last then some rest else skipPast? mark (c :: last) rest

/-- What follows the `>` that closes a document type, past inner pairs of angles. -/
def skipBalanced? : Nat → List Char → Option (List Char × List Char)
  | _, [] => none
  | depth, c :: rest =>
    if c = '>' ∧ depth = 0 then some ([], rest)
    else
      let depth := if c = '<' then depth + 1 else if c = '>' then depth - 1 else depth
      (skipBalanced? depth rest).map fun (content, after) => (c :: content, after)

/-- What follows a declaration that started with `<!`: character data, a comment or a document
type. -/
def skipDeclaration? : List Char → Option (List Char)
  | '[' :: rest =>
    if "CDATA[".toList.isPrefixOf rest then skipPast? [']', ']'] [] (rest.drop 6) else none
  | '-' :: '-' :: rest => skipPast? ['-', '-'] [] rest
  | c :: rest =>
    if c = 'D' ∨ c = 'd' then do
      let (content, after) ← skipBalanced? 0 (c :: rest)
      if Fold.agrees (content.take 7) "doctype".toList && !(content.drop 7).all isBlank then
        some after
      else none
    else none
  | [] => none

/-- What follows a processing instruction that started with `<?`. -/
def skipInstruction? : List Char → Option (List Char)
  | '>' :: _ => none
  | rest => skipPast? ['?'] ['?'] rest

theorem length_of_tagEnd? {quote : Option Char} {cs content after : List Char}
    (h : tagEnd? quote cs = some (content, after)) : after.length < cs.length := by
  induction cs generalizing quote content with
  | nil => cases quote <;> cases h
  | cons c rest ih =>
    cases quote with
    | none =>
      rw [tagEnd?] at h
      split at h
      · cases h; exact Nat.lt_succ_self _
      · obtain ⟨p, hp, e⟩ := Option.map_eq_some_iff.1 h
        cases e
        exact Nat.lt_succ_of_lt (ih hp)
    | some q =>
      rw [tagEnd?] at h
      obtain ⟨p, hp, e⟩ := Option.map_eq_some_iff.1 h
      cases e
      exact Nat.lt_succ_of_lt (ih hp)

theorem length_of_skipPast? {mark last cs after : List Char}
    (h : skipPast? mark last cs = some after) : after.length < cs.length := by
  induction cs generalizing last with
  | nil => cases h
  | cons c rest ih =>
    rw [skipPast?] at h
    split at h
    · cases h; exact Nat.lt_succ_self _
    · exact Nat.lt_succ_of_lt (ih h)

theorem length_of_skipBalanced? {depth : Nat} {cs content after : List Char}
    (h : skipBalanced? depth cs = some (content, after)) : after.length < cs.length := by
  induction cs generalizing depth content with
  | nil => cases h
  | cons c rest ih =>
    rw [skipBalanced?] at h
    split at h
    · cases h; exact Nat.lt_succ_self _
    · obtain ⟨p, hp, e⟩ := Option.map_eq_some_iff.1 h
      cases e
      exact Nat.lt_succ_of_lt (ih hp)

theorem length_of_skipDeclaration? {cs after : List Char}
    (h : skipDeclaration? cs = some after) : after.length < cs.length := by
  unfold skipDeclaration? at h
  split at h
  · split at h
    next rest _ =>
      have := length_of_skipPast? h
      simp only [List.length_drop, List.length_cons] at this ⊢
      omega
    · cases h
  · have := length_of_skipPast? h
    simp only [List.length_cons]
    omega
  · split at h
    · obtain ⟨⟨content, a⟩, hp, hb⟩ := Option.bind_eq_some_iff.1 h
      have := length_of_skipBalanced? hp
      dsimp only at hb
      split at hb
      · cases hb; exact this
      · cases hb
    · cases h
  · cases h

theorem length_of_skipInstruction? {cs after : List Char}
    (h : skipInstruction? cs = some after) : after.length < cs.length := by
  unfold skipInstruction? at h
  split at h
  · cases h
  · exact length_of_skipPast? h

/-- The next piece of a text: the event it stands for, if any, and what follows. A text that cannot
be read has nothing behind it. -/
def next : List Char → Option Event × List Char
  | [] => (none, [])
  | '<' :: '!' :: rest =>
    match skipDeclaration? rest with
    | some after => (none, after)
    | none => (some .broken, [])
  | '<' :: '?' :: rest =>
    match skipInstruction? rest with
    | some after => (none, after)
    | none => (some .broken, [])
  | '<' :: '/' :: rest =>
    match tagEnd? none rest with
    | some (content, after) => (some (closingTag content), after)
    | none => (some .broken, [])
  | '<' :: rest =>
    match tagEnd? none rest with
    | some (content, after) => (some (openingTag content), after)
    | none => (some .broken, [])
  | _ :: rest => (none, rest.dropWhile (· != '<'))

theorem length_next {c : Char} {cs : List Char} : (next (c :: cs)).2.length < cs.length + 1 := by
  have short {rest : List Char} (h : cs = rest) {after : List Char}
      (ha : after.length ≤ rest.length) : after.length < cs.length + 1 := by
    subst h
    exact Nat.lt_succ_of_le ha
  unfold next
  split
  next h => cases h
  next rest h =>
    injection h with _ h
    split
    next ha => exact short h (Nat.le_succ_of_le (Nat.le_of_lt (length_of_skipDeclaration? ha)))
    next => exact Nat.succ_pos _
  next rest h =>
    injection h with _ h
    split
    next ha => exact short h (Nat.le_succ_of_le (Nat.le_of_lt (length_of_skipInstruction? ha)))
    next => exact Nat.succ_pos _
  next rest h =>
    injection h with _ h
    split
    next ha => exact short h (Nat.le_succ_of_le (Nat.le_of_lt (length_of_tagEnd? ha)))
    next => exact Nat.succ_pos _
  next rest _ _ _ h =>
    injection h with _ h
    split
    next ha => exact short h (Nat.le_of_lt (length_of_tagEnd? ha))
    next => exact Nat.succ_pos _
  next h =>
    injection h with _ h
    exact short h (length_dropWhile_le (· != '<') _)

/-- The events of a text. -/
def events : List Char → List Event
  | [] => []
  | c :: cs =>
    match (next (c :: cs)).1 with
    | some event => event :: events (next (c :: cs)).2
    | none => events (next (c :: cs)).2
termination_by cs => cs.length
decreasing_by
  all_goals exact length_next

end MotionRack.Markup
