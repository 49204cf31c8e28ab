import MotionRack.Document.Reader
import MotionRack.Proofs.Document.Content
import MotionRack.Proofs.Document.Writing
import MotionRack.Proofs.Success

/-!
# Documents read back

An element that is written down, in whatever way its tags and what is between them are written, is
read back as it was. Putting the tags together goes step by step: the tags of an element do
nothing but attach it where the reading stands, and behind every tag the open elements are known
from the tags so far. So the text up to a tag fails with the innermost of these.
-/
namespace MotionRack

open Markup (Event Spells IsGap)

/-! ### Texts of an element -/

/-- Whether the name and the keys of an element are names, and no key is there twice. -/
def Element.IsNamed (e : Element) : Prop :=
  Markup.isName e.name = true ∧ (∀ a ∈ e.attributes, Markup.isName a.1 = true) ∧
    (e.attributes.map (·.1)).Nodup

instance : DecidablePred Element.IsNamed := fun _ => inferInstanceAs (Decidable (_ ∧ _ ∧ _))

/-- The open elements behind a tag, innermost first, if `outer` are those before it. -/
def Markup.Event.openBehind (outer : List String) : Event → List String
  | opening name _ => name :: outer
  | closing _ => outer.tail
  | empty _ _ | broken => outer

namespace Document

mutual
/-- The tags of an element. One without children has a pair of tags, or one that closes itself. -/
inductive Outlines : Element → List Event → Prop
  | empty {name : String} {attributes : Markup.Attributes} {path : String}
      {source : Option String} :
      Outlines ⟨name, attributes, [], path, source⟩ [.empty name attributes]
  | pair {name : String} {attributes : Markup.Attributes} {children : List Element}
      {path : String} {source : Option String} {inside : List Event} :
      OutlinesAll children inside →
      Outlines ⟨name, attributes, children, path, source⟩
        (.opening name attributes :: (inside ++ [.closing name]))

/-- The tags of a list of elements. -/
inductive OutlinesAll : List Element → List Event → Prop
  | nil : OutlinesAll [] []
  | cons {e : Element} {es : List Element} {front back : List Event} :
      Outlines e front → OutlinesAll es back → OutlinesAll (e :: es) (front ++ back)
end

/-- A tag as it is written, with what stands before it. -/
structure Piece where
  gap : List Char
  tag : List Char
  event : Event
  isGap : IsGap gap
  spells : Spells event tag

def Piece.text (p : Piece) : List Char := p.gap ++ p.tag

/-- A text that an element may be written as. -/
structure Rendering (e : Element) where
  pieces : List Piece
  trail : List Char
  isGap : IsGap trail
  outlines : Outlines e (pieces.map (·.event))

namespace Rendering

variable {e : Element} (r : Rendering e)

def text : String := String.ofList (r.pieces.flatMap Piece.text ++ r.trail)

/-- The text up to and with a number of tags. -/
def cut (tags : Nat) : String := String.ofList ((r.pieces.take tags).flatMap Piece.text)

/-- The elements that are open behind a number of tags, innermost first. -/
def openAt (tags : Nat) : List String :=
  ((r.pieces.take tags).map (·.event)).foldl Event.openBehind []

end Rendering

/-! ### The tags that are read -/

mutual
theorem isNamed_of_outlines : ∀ {e : Element} {events : List Event}, Outlines e events →
    (∀ d ∈ e.elements, d.IsNamed) → ∀ event ∈ events, event.IsNamed
  | _, _, .empty, h => by
    rw [List.forall_mem_singleton]
    exact h _ (Element.self_mem_elements _)
  | _, _, @Outlines.pair name attributes children path source inside hinside, h => by
    have hself := h _ (Element.self_mem_elements _)
    have hbelow : ∀ c ∈ children, ∀ d ∈ c.elements, d.IsNamed := fun c hc d hd =>
      h d (Element.mem_elements.mpr (Or.inr ⟨c, hc, hd⟩))
    rw [List.forall_mem_cons, List.forall_mem_append, List.forall_mem_singleton]
    exact ⟨hself, isNamed_of_outlinesAll hinside hbelow, hself.1⟩

theorem isNamed_of_outlinesAll : ∀ {es : List Element} {events : List Event},
    OutlinesAll es events → (∀ e ∈ es, ∀ d ∈ e.elements, d.IsNamed) →
      ∀ event ∈ events, event.IsNamed
  | _, _, .nil, _ => fun _ h => absurd h List.not_mem_nil
  | _, _, .cons hfirst hrest, h => by
    obtain ⟨he, hes⟩ := List.forall_mem_cons.mp h
    rw [List.forall_mem_append]
    exact ⟨isNamed_of_outlines hfirst he, isNamed_of_outlinesAll hrest hes⟩
end

theorem events_pieces {pieces : List Piece} (hnamed : ∀ p ∈ pieces, p.event.IsNamed)
    {trail : List Char} (htrail : IsGap trail) :
    Markup.events (pieces.flatMap Piece.text ++ trail) = pieces.map (·.event) := by
  induction pieces with
  | nil =>
    have hnone := Markup.events_gap htrail []
    rwa [List.append_nil, Markup.events] at hnone
  | cons p pieces ih =>
    obtain ⟨hp, hpieces⟩ := List.forall_mem_cons.mp hnamed
    rw [List.flatMap_cons, Piece.text, List.append_assoc, List.append_assoc,
      Markup.events_gap p.isGap, Markup.events_spells p.spells hp, ih hpieces, List.map_cons]

/-! ### Putting tags together, one by one -/

/-- A reading in progress: the open elements, innermost first, and the root once it is complete. -/
abbrev Progress := List Open × Option Element

/-- Attaches an element where a reading stands. -/
def attach : Progress → Element → Except MarkupFault Progress
  | (o :: stack, root), e => .ok ({ o with children := e :: o.children } :: stack, root)
  | ([], none), e => .ok ([], some e)
  | ([], some _), _ => .error .severalRoots

/-- What one tag does to a reading. -/
def step : Progress → Event → Except MarkupFault Progress
  | (stack, root), .opening name attributes => .ok (⟨name, attributes, []⟩ :: stack, root)
  | s, .empty name attributes => attach s (unplaced name attributes [])
  | (o :: stack, root), .closing name =>
    if o.name ≠ name then .error .broken else attach (stack, root) o.close
  | ([], _), .closing _ => .error .broken
  | _, .broken => .error .broken

/-- What a reading comes to behind the last tag. -/
def finish : Progress → Except MarkupFault Element
  | (o :: _, _) => .error (.neverClosed o.name)
  | ([], some root) => .ok root
  | ([], none) => .error .noRoot

theorem assemble_eq (stack : List Open) (root : Option Element) (events : List Event) :
    assemble stack root events = events.foldlM step (stack, root) >>= finish := by
  induction events generalizing stack root with
  | nil => cases stack <;> cases root <;> rfl
  | cons event rest ih =>
    rw [List.foldlM_cons]
    cases event with
    | opening name attributes =>
      rw [assemble]
      exact ih (⟨name, attributes, []⟩ :: stack) root
    | empty name attributes =>
      match stack, root with
      | o :: stack, root => exact ih (_ :: stack) root
      | [], none => exact ih [] _
      | [], some _ => rfl
    | closing name =>
      cases stack with
      | nil =>
        rw [assemble]
        rfl
      | cons o stack =>
        by_cases hname : o.name ≠ name
        · rw [assemble.eq_def, step, if_pos hname]
          dsimp only
          rw [if_pos hname]
          rfl
        · rw [assemble.eq_def, step, if_neg hname]
          dsimp only
          rw [if_neg hname]
          match stack, root with
          | parent :: stack, root => exact ih (_ :: stack) root
          | [], none => exact ih [] _
          | [], some _ => rfl
    | broken => cases stack <;> cases root <;> rfl

/-! ### What the tags of an element come to -/

mutual
/-- The element as its tags are put together, before it and all below it know their places. -/
def fresh : Element → Element
  | ⟨name, attributes, children, _, _⟩ => unplaced name attributes (freshAll children)

/-- A list of elements before they know their places. -/
def freshAll : List Element → List Element
  | [] => []
  | e :: es => fresh e :: freshAll es
end

mutual
/-- The tags of an element attach it where the reading stands. -/
theorem foldlM_outlines : ∀ {e : Element} {events : List Event}, Outlines e events →
    ∀ s : Progress, events.foldlM step s = attach s (fresh e)
  | _, _, @Outlines.empty name attributes path source => by
    intro s
    simp only [List.foldlM_cons, List.foldlM_nil, bind_pure, step, fresh, freshAll]
  | _, _, @Outlines.pair name attributes children path source inside hinside => by
    rintro ⟨stack, root⟩
    rw [List.foldlM_cons, step, fresh]
    change (inside ++ [Event.closing name]).foldlM step (⟨name, attributes, []⟩ :: stack, root) = _
    rw [List.foldlM_append, foldlM_outlinesAll hinside]
    change [Event.closing name].foldlM step
      (⟨name, attributes, (freshAll children).reverse ++ []⟩ :: stack, root) = _
    simp only [List.foldlM_cons, List.foldlM_nil, bind_pure, step, ne_eq, not_true_eq_false,
      if_false, Open.close, List.append_nil, List.reverse_reverse]

/-- The tags of the children of an open element attach them to it, in order. -/
theorem foldlM_outlinesAll : ∀ {es : List Element} {events : List Event}, OutlinesAll es events →
    ∀ (o : Open) (stack : List Open) (root : Option Element),
      events.foldlM step (o :: stack, root) =
        .ok ({ o with children := (freshAll es).reverse ++ o.children } :: stack, root)
  | _, _, .nil => fun _ _ _ => rfl
  | _, _, @OutlinesAll.cons e es front back hfirst hrest => by
    intro o stack root
    rw [List.foldlM_append, foldlM_outlines hfirst, attach]
    change back.foldlM step ({ o with children := fresh e :: o.children } :: stack, root) = _
    rw [foldlM_outlinesAll hrest, freshAll, List.reverse_cons, List.append_assoc]
    rfl
end

/-- Behind every tag the open elements are those that the tags so far leave open. -/
theorem names_of_step {s next : Progress} {event : Event} (h : step s event = .ok next) :
    next.1.map (·.name) = event.openBehind (s.1.map (·.name)) := by
  have hattach : ∀ (s : Progress) (e : Element), attach s e = .ok next →
      next.1.map (·.name) = s.1.map (·.name) := by
    rintro ⟨stack, root⟩ e h
    match stack, root with
    | o :: stack, root =>
      cases h
      rfl
    | [], none =>
      cases h
      rfl
    | [], some _ => cases h
  obtain ⟨stack, root⟩ := s
  cases event with
  | opening name attributes =>
    cases h
    rfl
  | empty name attributes => exact hattach _ _ h
  | closing name =>
    cases stack with
    | nil => cases h
    | cons o stack =>
      rw [step] at h
      split at h
      · cases h
      · exact hattach _ _ h
  | broken => cases stack <;> cases h

theorem names_of_foldlM {events : List Event} {s final : Progress}
    (h : events.foldlM step s = .ok final) :
    final.1.map (·.name) = events.foldl Event.openBehind (s.1.map (·.name)) := by
  induction events generalizing s with
  | nil =>
    cases h
    rfl
  | cons event events ih =>
    obtain ⟨next, hnext, hrest⟩ := bind_eq_ok.mp h
    rw [List.foldl_cons, ← names_of_step hnext]
    exact ih hrest

/-- The tags of an element give the element. -/
theorem assemble_outlines {e : Element} {events : List Event} (h : Outlines e events) :
    assemble [] none events = .ok (fresh e) := by
  rw [assemble_eq, foldlM_outlines h]
  rfl

/-- The first tags of an element, as long as they leave one open, end in the innermost. -/
theorem assemble_take {e : Element} {events : List Event} (h : Outlines e events) {tags : Nat}
    {name : String} {outer : List String}
    (hopen : (events.take tags).foldl Event.openBehind [] = name :: outer) :
    assemble [] none (events.take tags) = .error (.neverClosed name) := by
  have hall : events.foldlM step ([], none) = .ok ([], some (fresh e)) := foldlM_outlines h _
  rw [← List.take_append_drop tags events, List.foldlM_append] at hall
  obtain ⟨⟨stack, root⟩, hfirst, -⟩ := bind_eq_ok.mp hall
  have hnames := names_of_foldlM hfirst
  rw [List.map_nil, hopen] at hnames
  rw [assemble_eq, hfirst]
  cases stack with
  | nil => cases hnames
  | cons o stack =>
    rw [List.map_cons, List.cons.injEq] at hnames
    rw [← hnames.1]
    rfl

/-! ### The element that is read -/

mutual
theorem content_fresh : ∀ e : Element, (fresh e).content = e.content
  | ⟨_, _, children, _, _⟩ => by
    rw [fresh, unplaced, Element.content, Element.content, contentAll_freshAll]

theorem contentAll_freshAll : ∀ es : List Element,
    Element.contentAll (freshAll es) = Element.contentAll es
  | [] => by rw [freshAll]
  | e :: es => by
    rw [freshAll, Element.contentAll, Element.contentAll, content_fresh, contentAll_freshAll]
end

mutual
theorem source_of_mem_fresh : ∀ e : Element, ∀ d ∈ (fresh e).elements, d.source = none
  | ⟨_, _, children, _, _⟩ => by
    rw [fresh, unplaced, Element.elements, List.forall_mem_cons]
    exact ⟨rfl, source_of_mem_freshAll children⟩

theorem source_of_mem_freshAll : ∀ es : List Element,
    ∀ d ∈ Element.elementsOf (freshAll es), d.source = none
  | [] => by
    rw [freshAll, Element.elementsOf]
    exact fun _ h => absurd h List.not_mem_nil
  | e :: es => by
    rw [freshAll, Element.elementsOf, List.forall_mem_append]
    exact ⟨source_of_mem_fresh e, source_of_mem_freshAll es⟩
end

theorem parse_eq_ok {text : String} {e : Element}
    (h : assemble [] none (Markup.events text.toList) = .ok (fresh e)) (source : Option String) :
    ∃ root, parse text source = .ok root ∧ root.content = e.content ∧
      root.reindex ("/" ++ e.name) = root ∧ ∀ d ∈ root.elements, d.source = source := by
  have hname : (fresh e).name = e.name := by
    rw [← Element.name_content, content_fresh, Element.name_content]
  rw [parse, h]
  dsimp only
  rw [hname]
  cases source with
  | none =>
    refine ⟨_, rfl, ?_, Element.reindex_reindex _ _ _, ?_⟩
    · rw [Element.content_reindex, content_fresh]
    · intro d hd
      have hsource : d.source ∈ ((fresh e).reindex ("/" ++ e.name)).elements.map (·.source) :=
        List.mem_map_of_mem hd
      rw [Element.map_elements_reindex fun _ _ _ => rfl] at hsource
      obtain ⟨d', hd', hsame⟩ := List.mem_map.mp hsource
      rw [← hsame, source_of_mem_fresh e d' hd']
  | some file =>
    refine ⟨_, rfl, ?_, ?_, Element.source_of_mem_withSource file _⟩
    · rw [Element.content_withSource, Element.content_reindex, content_fresh]
    · rw [Element.reindex_withSource, Element.reindex_reindex]

/-! ### There and back -/

namespace Rendering

variable {e : Element}

section

variable (hnamed : ∀ d ∈ e.elements, d.IsNamed) (r : Rendering e)

include hnamed

theorem isNamed_pieces : ∀ p ∈ r.pieces, p.event.IsNamed := fun p hp =>
  isNamed_of_outlines r.outlines hnamed p.event (List.mem_map_of_mem hp)

theorem events_text : Markup.events r.text.toList = r.pieces.map (·.event) := by
  rw [text, String.toList_ofList, events_pieces (r.isNamed_pieces hnamed) r.isGap]

theorem events_cut (tags : Nat) :
    Markup.events (r.cut tags).toList = (r.pieces.map (·.event)).take tags := by
  have hpieces : ∀ p ∈ r.pieces.take tags, p.event.IsNamed := fun p hp =>
    r.isNamed_pieces hnamed p (List.mem_of_mem_take hp)
  have hevents := events_pieces hpieces .nil
  rw [List.append_nil] at hevents
  rw [cut, String.toList_ofList, hevents, List.map_take]

end

/-- Whatever an element is written as, it is read back as it was, with the places that its root
gives it and with its origin; the text up to a tag that leaves an element open is refused for the
innermost of these. -/
theorem read_back (hnamed : ∀ d ∈ e.elements, d.IsNamed) (r : Rendering e)
    (source : Option String) :
    (∃ root, parse r.text source = .ok root ∧ root.content = e.content ∧
      root.reindex ("/" ++ e.name) = root ∧ ∀ d ∈ root.elements, d.source = source) ∧
    ∀ tags name outer, r.openAt tags = name :: outer →
      ∃ fault, parse (r.cut tags) source =
          .error (.markup (source.getD memoryName) fault) ∧
        fault.message = "element <" ++ name ++ "> is never closed" := by
  constructor
  · apply parse_eq_ok
    rw [r.events_text hnamed]
    exact assemble_outlines r.outlines
  · intro tags name outer hopen
    rw [openAt, List.map_take] at hopen
    refine ⟨.neverClosed name, ?_, rfl⟩
    rw [parse, r.events_cut hnamed, assemble_take r.outlines hopen]

section

open Markup

/-- A rack with a note and two elements that have nothing below them. -/
def noted : Element := unplaced "Rack" [("note", "a<b")]
  [unplaced "Card" [("slot", "3"), ("type", "5")] [], unplaced "Port" [] []]

/-- The rack with a comment in front, blanks and both kinds of quotes; one of the elements without
children closes itself, the other one has two tags. -/
def notedRendering : Rendering noted where
  pieces := [
    ⟨_, _, .opening "Rack" [("note", "a<b")],
      .comment (by decide : ¬ ['-', '-', '>'] <:+: " > ".toList ++ ['-', '-']) .nil,
      @Spells.opening _ _ _ [] (@Writes.cons _ _ _ [' '] [' '] ['\n'] _ '\'' (by decide) (by decide)
        (by decide) (by decide) (by decide) .nil) (by decide)⟩,
    ⟨" cards: ".toList, _, .empty "Card" [("slot", "3"), ("type", "5")],
      isGap_of_not_mem (by decide),
      @Spells.empty _ _ _ [' '] (@Writes.cons _ _ _ ['\t'] [] [] _ '"' (by decide) (by decide)
        (by decide) (by decide) (by decide) (@Writes.cons _ _ _ [' '] [] [] _ '"' (by decide)
        (by decide) (by decide) (by decide) (by decide) .nil)) (by decide)⟩,
    ⟨[], _, .opening "Port" [], .nil, @Spells.opening _ _ _ [] .nil (by decide)⟩,
    ⟨['\n'], _, .closing "Port", isGap_of_not_mem (by decide), @Spells.closing _ [' '] (by decide)⟩,
    ⟨[], _, .closing "Rack", .nil, @Spells.closing _ [] (by decide)⟩]
  trail := ['\n']
  isGap := isGap_of_not_mem (by decide)
  outlines := .pair (.cons .empty (.cons (.pair .nil) .nil))

/-- The text is what one would write, it is read back, and up to its third tag it leaves the inner
element open. -/
theorem read_back_noted :
    notedRendering.text = "<!-- > --><Rack note =\n'a&lt;b'> cards: " ++
      "<Card\tslot=\"3\" type=\"5\" /><Port>\n</Port ></Rack>\n" ∧
    (∃ root, parse notedRendering.text (some "rack.xml") = .ok root ∧
      root.content = noted.content ∧ root.reindex "/Rack" = root ∧
      ∀ d ∈ root.elements, d.source = some "rack.xml") ∧
    ∃ fault, parse (notedRendering.cut 3) (some "rack.xml") =
        .error (.markup "rack.xml" fault) ∧
      fault.message = "element <Port> is never closed" := by
  have hnamed : ∀ d ∈ noted.elements, d.IsNamed := by decide
  obtain ⟨hread, hcut⟩ := notedRendering.read_back hnamed (some "rack.xml")
  exact ⟨by decide, hread, hcut 3 "Port" ["Rack"] (by decide)⟩

end

end Rendering
end Document
end MotionRack
