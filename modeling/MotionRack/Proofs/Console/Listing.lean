import MotionRack.Console.Listing
import MotionRack.Text.Split

/-!
# Listings read back

A listing tells the bytes of its frames: they can be read back from its lines, in order and without
loss, whether it is written as text or as JSON.
-/
namespace MotionRack.Console

open FrameRow (bytesText commandText)

/-! ### Texts without marks -/

/-- The characters by which the parts of a listing are told apart. -/
def isMark (c : Char) : Bool := c == '\n' || c == '>' || c == '"'

/-- Whether a text holds none of them. -/
def Plain (text : String) : Prop := text.toList.any isMark = false

theorem Plain.notMem {text : String} (h : Plain text) {c : Char} (hc : isMark c = true) :
    c ∉ text.toList := by
  intro hmem
  rw [Plain, List.any_eq_false] at h
  exact h c hmem hc

theorem Plain.append {a b : String} (ha : Plain a) (hb : Plain b) : Plain (a ++ b) := by
  rw [Plain] at ha hb ⊢
  rw [String.toList_append, List.any_append, ha, hb]
  rfl

theorem Plain.padded {text : String} (h : Plain text) (width : Nat) :
    Plain (padded width text) := by
  refine h.append ?_
  rw [Plain, String.toList_ofList, List.any_eq_false]
  intro c hc
  rw [List.eq_of_mem_replicate hc]
  exact Bool.false_ne_true

theorem isMark_digit : ∀ n < 16, isMark (Hex.digit n) = false := by decide

theorem plain_digits (width n : Nat) : Plain (String.ofList (Hex.digits width n)) := by
  rw [Plain, String.toList_ofList]
  induction width generalizing n with
  | zero => rfl
  | succ width ih =>
    have hlast := isMark_digit (n % 16) (Nat.mod_lt _ (by decide))
    rw [Hex.digits, List.any_append, ih, List.any_cons, hlast]
    rfl

theorem plain_repr (n : Nat) : Plain (toString n) := by
  rw [Plain, Nat.toString_eq_repr, Nat.toList_repr, List.any_eq_false]
  intro c hc hmark
  have hdigit := Nat.isDigit_of_mem_toDigits (by decide) (by decide) hc
  have hmarks : c = '\n' ∨ c = '>' ∨ c = '"' := by simpa [isMark, or_assoc] using hmark
  rcases hmarks with rfl | rfl | rfl <;> exact absurd hdigit (by decide)

theorem plain_stageName (stage : Stage) : Plain stage.name := by
  cases stage <;> rfl

theorem plain_commandText (f : Frame) : Plain (commandText f) :=
  Plain.append rfl (plain_digits 4 f.command.toNat)

theorem plain_commandName {id : CommandId} {name : String} (h : Command.name? id = some name) :
    Plain name := by
  have hnames : Command.names.all (fun entry => !entry.2.toList.any isMark) = true := by
    decide +kernel
  obtain ⟨front, back, hsplit, -⟩ := List.lookup_eq_some_iff.mp h
  have hmem : (id, name) ∈ Command.names := by simp [hsplit]
  have hname := List.all_eq_true.mp hnames (id, name) hmem
  rwa [Bool.not_eq_true'] at hname

theorem plain_destination (a : Address) : Plain a.render := by
  cases a with
  | host => rfl
  | motherboard => rfl
  | slot index => exact Plain.append rfl (plain_repr _)
  | other b => exact Plain.append rfl (plain_digits 2 b.toNat)

/-! ### Bytes -/

/-- The value of an upper-case hexadecimal digit. -/
def hexValue? (c : Char) : Option Nat :=
  if '0' ≤ c ∧ c ≤ '9' then some (c.toNat - 48)
  else if 'A' ≤ c ∧ c ≤ 'F' then some (c.toNat - 55)
  else none

/-- The byte that two digits stand for. -/
def byte? : List Char → Option UInt8
  | [high, low] => do return UInt8.ofNat (16 * (← hexValue? high) + (← hexValue? low))
  | _ => none

/-- The bytes that are written with a blank between neighbours. -/
def octets? (cs : List Char) : Option Octets := (Split.cut ' ' cs).mapM byte?

theorem hexValue?_digit : ∀ n < 16, hexValue? (Hex.digit n) = some n := by decide

theorem digit_ne_blank : ∀ n < 16, Hex.digit n ≠ ' ' := by decide

theorem toList_byte (b : UInt8) :
    (Hex.byte b).toList = [Hex.digit (b.toNat / 16 % 16), Hex.digit (b.toNat % 16)] :=
  String.toList_ofList

theorem blank_notMem_byte (b : UInt8) : ' ' ∉ (Hex.byte b).toList := by
  have hhigh := digit_ne_blank (b.toNat / 16 % 16) (Nat.mod_lt _ (by decide))
  have hlow := digit_ne_blank (b.toNat % 16) (Nat.mod_lt _ (by decide))
  simp [toList_byte, hhigh.symm, hlow.symm]

theorem byte?_byte (b : UInt8) : byte? (Hex.byte b).toList = some b := by
  have hb := b.toNat_lt
  have hhigh := hexValue?_digit (b.toNat / 16 % 16) (Nat.mod_lt _ (by decide))
  have hlow := hexValue?_digit (b.toNat % 16) (Nat.mod_lt _ (by decide))
  have hsum : 16 * (b.toNat / 16 % 16) + b.toNat % 16 = b.toNat := by omega
  rw [toList_byte, byte?, hhigh, hlow]
  simp only [Option.bind_eq_bind, Option.bind_some, hsum, UInt8.ofNat_toNat]
  rfl

theorem bytesText_singleton (b : UInt8) : bytesText [b] = Hex.byte b := by
  rw [bytesText, List.map_singleton, String.intercalate_singleton]

theorem bytesText_cons_cons (b c : UInt8) (rest : Octets) :
    bytesText (b :: c :: rest) = Hex.byte b ++ " " ++ bytesText (c :: rest) := by
  rw [bytesText, bytesText, List.map_cons, List.map_cons, String.intercalate_cons_cons]

theorem plain_bytesText (bytes : Octets) : Plain (bytesText bytes) := by
  match bytes with
  | [] => rfl
  | [b] =>
    rw [bytesText_singleton]
    exact plain_digits 2 b.toNat
  | b :: c :: rest =>
    have hbyte : Plain (Hex.byte b) := plain_digits 2 b.toNat
    have hblank : Plain " " := rfl
    rw [bytesText_cons_cons]
    exact (hbyte.append hblank).append (plain_bytesText (c :: rest))

/-- Bytes are read back as they were written. -/
theorem octets?_bytesText {bytes : Octets} (h : bytes ≠ []) :
    octets? (bytesText bytes).toList = some bytes := by
  match bytes with
  | [b] =>
    rw [bytesText_singleton, octets?, Split.cut_of_notMem (blank_notMem_byte b), List.mapM_cons,
      byte?_byte]
    rfl
  | b :: c :: rest =>
    have hrest : (Split.cut ' ' (bytesText (c :: rest)).toList).mapM byte? = some (c :: rest) :=
      octets?_bytesText (List.cons_ne_nil c rest)
    have hchars : (bytesText (b :: c :: rest)).toList =
        (Hex.byte b).toList ++ ' ' :: (bytesText (c :: rest)).toList := by
      rw [bytesText_cons_cons, String.toList_append, String.toList_append, List.append_assoc]
      rfl
    rw [hchars, octets?, Split.cut_append, Split.cut_of_notMem (blank_notMem_byte b),
      List.singleton_append, List.mapM_cons, byte?_byte, hrest]
    rfl

/-! ### Lines -/

/-- The bytes in a line of text for a frame: they stand behind the arrow and the column of the
destination. A line without an arrow is for no frame. -/
def textBytes? (line : List Char) : Option (List Char) :=
  if '>' ∈ line then some ((((line.dropWhile (· != '>')).drop 12).dropWhile (· != ' ')).drop 1)
  else none

/-- The bytes in a line of JSON, if it is the member that tells them. -/
def jsonBytes? (line : List Char) : Option (List Char) :=
  let lead := "    \"bytes\": \"".toList
  if lead.isPrefixOf line then some ((line.drop lead.length).takeWhile (· != '"')) else none

/-- What is found in the lines of a text, in order. -/
def foundIn (find : List Char → Option (List Char)) (text : List Char) : List (List Char) :=
  (Split.cut '\n' text).filterMap find

/-- The frames that a listing shows, as bytes. -/
def listedFrames? (json : Bool) (output : String) : Option (List Octets) :=
  (foundIn (if json then jsonBytes? else textBytes?) output.toList).mapM octets?

section
variable {find : List Char → Option (List Char)}

theorem foundIn_append (a b : List Char) :
    foundIn find (a ++ '\n' :: b) = foundIn find a ++ foundIn find b := by
  rw [foundIn, Split.cut_append, List.filterMap_append]
  rfl

theorem foundIn_line {line : List Char} (h : '\n' ∉ line) :
    foundIn find line = (find line).toList := by
  rw [foundIn, Split.cut_of_notMem h, List.filterMap_cons]
  cases find line <;> rfl

theorem foundIn_line_append {line : List Char} (h : '\n' ∉ line) (rest : List Char) :
    foundIn find (line ++ '\n' :: rest) = (find line).toList ++ foundIn find rest := by
  rw [foundIn_append, foundIn_line h]

end

/-- Behind the column of the destination one blank precedes the bytes, also where the name of the
destination is wider than its column. -/
theorem drop_destination (a : Address) (rest : List Char) :
    ((((padded 10 a.render).toList ++ ' ' :: rest).drop 10).dropWhile (· != ' ')).drop 1 =
      rest := by
  have hfilled : ∀ text : String, text.length ≤ 10 →
      ((((padded 10 text).toList ++ ' ' :: rest).drop 10).dropWhile (· != ' ')).drop 1 = rest := by
    intro text htext
    have hlength : (padded 10 text).toList.length = 10 := by
      rw [padded, String.toList_append, String.toList_ofList, List.length_append,
        List.length_replicate, String.length_toList]
      omega
    rw [List.drop_left' hlength]
    rfl
  cases a with
  | host => exact hfilled _ (by decide)
  | motherboard => rfl
  | slot index =>
    refine hfilled _ ?_
    have hindex := index.toNat_lt
    have hdigits : (toString (index.toNat + 1)).length ≤ 3 := by
      rw [← String.length_toList, Nat.toString_eq_repr, Nat.toList_repr,
        Nat.length_toDigits_le_iff (by decide) (by decide)]
      omega
    change ("slot " ++ toString (index.toNat + 1)).length ≤ 10
    rw [String.length_append]
    have hlead : "slot ".length = 5 := rfl
    omega
  | other b =>
    refine hfilled _ ?_
    have hdigits : (Hex.byte b).length = 2 := by
      rw [← String.length_toList, Hex.byte, String.toList_ofList]
      rfl
    change ("0x" ++ Hex.byte b).length ≤ 10
    rw [String.length_append, hdigits]
    decide

/-! ### Frames as lines -/

/-- What stands ahead of the arrow in a line for a frame, without its tip. -/
def FrameRow.head (r : FrameRow) : String :=
  padded 16 ((r.stage.map (·.name)).getD "-") ++ " " ++ commandText r.frame ++ " "
    ++ padded 28 ((Command.name? r.frame.command).getD "?") ++ " -"

theorem plain_head (r : FrameRow) : Plain r.head := by
  have hstage : Plain ((r.stage.map (·.name)).getD "-") := by
    cases r.stage with
    | none => rfl
    | some stage => exact plain_stageName stage
  have hname : Plain ((Command.name? r.frame.command).getD "?") := by
    cases hname : Command.name? r.frame.command with
    | none => rfl
    | some name => exact plain_commandName hname
  have hblank : Plain " " := rfl
  have hdash : Plain " -" := rfl
  exact (((((hstage.padded 16).append hblank).append (plain_commandText r.frame)).append
    hblank).append (hname.padded 28)).append hdash

theorem exists_line (r : FrameRow) :
    ∃ line, r.line.toList = line ++ ['\n'] ∧ '\n' ∉ line ∧
      textBytes? line = some (bytesText r.frame.encode).toList := by
  have hhead := plain_head r
  have hdestination := (plain_destination r.frame.destination).padded 10
  have hbytes := plain_bytesText r.frame.encode
  refine ⟨r.head.toList ++ '>' :: ' ' :: ((padded 10 r.frame.destination.render).toList ++
    ' ' :: (bytesText r.frame.encode).toList), ?_, ?_, ?_⟩
  · simp [FrameRow.line, FrameRow.head, toString]
  · have hnewline : isMark '\n' = true := rfl
    simp [hhead.notMem hnewline, hdestination.notMem hnewline, hbytes.notMem hnewline]
  · have hnone : '>' ∉ r.head.toList := hhead.notMem rfl
    have hdrop : (r.head.toList ++ '>' :: ' ' :: ((padded 10 r.frame.destination.render).toList ++
        ' ' :: (bytesText r.frame.encode).toList)).dropWhile (· != '>') =
        '>' :: ' ' :: ((padded 10 r.frame.destination.render).toList ++
          ' ' :: (bytesText r.frame.encode).toList) := by
      rw [List.dropWhile_append_of_pos (Split.forall_bne_of_notMem hnone)]
      rfl
    have harrived : '>' ∈ r.head.toList ++ '>' :: ' ' ::
        ((padded 10 r.frame.destination.render).toList ++
          ' ' :: (bytesText r.frame.encode).toList) :=
      List.mem_append_right _ List.mem_cons_self
    rw [textBytes?, if_pos harrived, hdrop]
    exact congrArg some (drop_destination r.frame.destination _)

theorem foundIn_frameLines (rows : List FrameRow) (rest : List Char) :
    foundIn textBytes? ((frameLines rows).toList ++ rest) =
      rows.map (fun r => (bytesText r.frame.encode).toList) ++ foundIn textBytes? rest := by
  induction rows with
  | nil => rfl
  | cons r rows ih =>
    obtain ⟨line, hline, hnewline, hbytes⟩ := exists_line r
    have hcons : (frameLines (r :: rows)).toList = r.line.toList ++ (frameLines rows).toList := by
      rw [frameLines, frameLines, List.map_cons, String.join_cons, String.toList_append]
    rw [hcons, hline, List.append_assoc, List.append_assoc, List.singleton_append,
      foundIn_line_append hnewline, hbytes, ih]
    rfl

/-- The line that sums up a stage. -/
def stageSummary (p : StagePlan) : String :=
  "# " ++ p.stage.name ++ ": " ++ toString p.entities ++ " entities, " ++ toString p.frames.length
    ++ " frames (" ++ toString p.commits ++ " persist)"

theorem plain_stageSummary (p : StagePlan) : Plain (stageSummary p) := by
  have hlead : Plain "# " := rfl
  have hcolon : Plain ": " := rfl
  have hentities : Plain " entities, " := rfl
  have hframes : Plain " frames (" := rfl
  have hpersist : Plain " persist)" := rfl
  exact (((((((hlead.append (plain_stageName p.stage)).append hcolon).append
    (plain_repr p.entities)).append hentities).append (plain_repr p.frames.length)).append
    hframes).append (plain_repr p.commits)).append hpersist

theorem foundIn_planSummary (plans : List StagePlan) :
    foundIn textBytes? (planSummary plans).toList = [] := by
  induction plans with
  | nil => rfl
  | cons p plans ih =>
    have hplain := plain_stageSummary p
    have hcons : (planSummary (p :: plans)).toList =
        (stageSummary p).toList ++ '\n' :: (planSummary plans).toList := by
      simp [planSummary, stageSummary, toString]
    have hnone : textBytes? (stageSummary p).toList = none := if_neg (hplain.notMem rfl)
    rw [hcons, foundIn_line_append (hplain.notMem rfl), hnone, ih]
    rfl

/-! ### Frames as JSON -/

/-- A member on a line of its own. -/
def memberLine (member : String × String) : String :=
  "    \"" ++ member.1 ++ "\": \"" ++ member.2 ++ "\""

/-- The keys of the members of a frame. -/
def memberKeys : List String := ["stage", "command", "name", "destination", "bytes"]

/-- Whether a member has one of these keys, and a value that stays on its line. -/
def Member (member : String × String) : Prop := member.1 ∈ memberKeys ∧ Plain member.2

theorem members_member (r : FrameRow) : ∀ member ∈ r.members, Member member := by
  have hstage : ∀ stage : Stage, Member ("stage", stage.name) :=
    fun stage => ⟨by simp [memberKeys], plain_stageName stage⟩
  have hcommand : Member ("command", commandText r.frame) :=
    ⟨by simp [memberKeys], plain_commandText r.frame⟩
  have hname : ∀ name, Command.name? r.frame.command = some name → Member ("name", name) :=
    fun name h => ⟨by simp [memberKeys], plain_commandName h⟩
  have hdestination : Member ("destination", r.frame.destination.render) :=
    ⟨by simp [memberKeys], plain_destination r.frame.destination⟩
  have hbytes : Member ("bytes", bytesText r.frame.encode) :=
    ⟨by simp [memberKeys], plain_bytesText r.frame.encode⟩
  intro member hmember
  unfold FrameRow.members at hmember
  simp only [List.mem_append, List.mem_cons, List.not_mem_nil, or_false] at hmember
  rcases hmember with ((hmember | rfl) | hmember) | rfl | rfl
  · split at hmember
    · obtain rfl := List.mem_singleton.mp hmember
      exact hstage _
    · cases hmember
  · exact hcommand
  · split at hmember
    · next name hfound =>
      obtain rfl := List.mem_singleton.mp hmember
      exact hname name hfound
    · cases hmember
  · exact hdestination
  · exact hbytes

theorem filter_members (r : FrameRow) :
    r.members.filter (·.1 == "bytes") = [("bytes", bytesText r.frame.encode)] := by
  unfold FrameRow.members
  cases r.stage <;> cases Command.name? r.frame.command <;> rfl

theorem newline_notMem_memberLine {member : String × String} (h : Member member)
    (tail : List Char) (htail : '\n' ∉ tail) : '\n' ∉ (memberLine member).toList ++ tail := by
  have hkeys : ∀ key ∈ memberKeys, '\n' ∉ key.toList := by decide
  have hkey := hkeys member.1 h.1
  have hvalue : '\n' ∉ member.2.toList := h.2.notMem rfl
  simp [memberLine, hkey, hvalue, htail]

theorem jsonBytes?_memberLine {member : String × String} (h : Member member) (tail : List Char) :
    jsonBytes? ((memberLine member).toList ++ tail) =
      if member.1 = "bytes" then some member.2.toList else none := by
  obtain ⟨key, value⟩ := member
  obtain ⟨hkey, hvalue⟩ := h
  simp only [memberKeys, List.mem_cons, List.not_mem_nil, or_false] at hkey
  rcases hkey with rfl | rfl | rfl | rfl | rfl
  · simp [jsonBytes?, memberLine]
  · simp [jsonBytes?, memberLine]
  · simp [jsonBytes?, memberLine]
  · simp [jsonBytes?, memberLine]
  · have hnone : '"' ∉ value.toList := hvalue.notMem rfl
    have hquote := Split.forall_bne_of_notMem hnone
    simp [jsonBytes?, memberLine, List.takeWhile_append_of_pos hquote]

/-- Of members with a line each, and a comma between neighbours, only the bytes are found. -/
theorem foundIn_members {members : List (String × String)} (hne : members ≠ [])
    (h : ∀ member ∈ members, Member member) (rest : List Char) :
    foundIn jsonBytes? ((",\n".intercalate (members.map memberLine)).toList ++ '\n' :: rest) =
      (members.filter (·.1 == "bytes")).map (·.2.toList) ++ foundIn jsonBytes? rest := by
  induction members with
  | nil => exact absurd rfl hne
  | cons member members ih =>
    obtain ⟨hmember, hmembers⟩ := List.forall_mem_cons.mp h
    have hfound : ∀ tail, (jsonBytes? ((memberLine member).toList ++ tail)).toList =
        ([member].filter (·.1 == "bytes")).map (·.2.toList) := by
      intro tail
      rw [jsonBytes?_memberLine hmember]
      by_cases hbytes : member.1 = "bytes" <;> simp [hbytes]
    cases members with
    | nil =>
      have hline := newline_notMem_memberLine hmember [] List.not_mem_nil
      have hfound' := hfound []
      rw [List.append_nil] at hline hfound'
      rw [List.map_singleton, String.intercalate_singleton, foundIn_line_append hline, hfound']
    | cons next members =>
      have hline := newline_notMem_memberLine hmember [','] (by decide)
      have hrest := ih (List.cons_ne_nil next members) hmembers
      have hlines : (",\n".intercalate ((member :: next :: members).map memberLine)).toList =
          (memberLine member).toList ++ [','] ++ '\n' ::
            (",\n".intercalate ((next :: members).map memberLine)).toList := by
        rw [List.map_cons, List.map_cons, String.intercalate_cons_cons, String.toList_append,
          String.toList_append, List.append_assoc, List.append_assoc]
        rfl
      rw [hlines, List.append_assoc, List.cons_append, foundIn_line_append hline, hfound, hrest,
        ← List.append_assoc, ← List.map_append, ← List.filter_append]
      rfl

/-- A frame as an object shows its bytes, whatever follows on its last line. -/
theorem foundIn_json (r : FrameRow) (rest : List Char) :
    foundIn jsonBytes? (r.json.toList ++ rest) =
      (bytesText r.frame.encode).toList :: foundIn jsonBytes? ("  \x7d".toList ++ rest) := by
  have hne : r.members ≠ [] := by
    unfold FrameRow.members
    simp
  have hjson : r.json.toList ++ rest = "  \x7b".toList ++ '\n' ::
      ((",\n".intercalate (r.members.map memberLine)).toList ++
        '\n' :: ("  \x7d".toList ++ rest)) := by
    have hlines : r.json = "  \x7b\n" ++ ",\n".intercalate (r.members.map memberLine)
        ++ "\n  \x7d" := rfl
    rw [hlines]
    simp
  rw [hjson, foundIn_line_append (by decide), foundIn_members hne (members_member r),
    filter_members]
  rfl

theorem foundIn_jsonRows {rows : List FrameRow} (hne : rows ≠ []) :
    foundIn jsonBytes? ((",\n".intercalate (rows.map (·.json))).toList ++ "\n]\n".toList) =
      rows.map fun r => (bytesText r.frame.encode).toList := by
  induction rows with
  | nil => exact absurd rfl hne
  | cons r rows ih =>
    cases rows with
    | nil =>
      rw [List.map_singleton, String.intercalate_singleton, foundIn_json]
      rfl
    | cons next rows =>
      have hrest := ih (List.cons_ne_nil next rows)
      have hlines : (",\n".intercalate ((r :: next :: rows).map (·.json))).toList =
          r.json.toList ++ (',' :: '\n' ::
            (",\n".intercalate ((next :: rows).map (·.json))).toList) := by
        rw [List.map_cons, List.map_cons, String.intercalate_cons_cons, String.toList_append,
          String.toList_append, List.append_assoc]
        rfl
      have hend : "  \x7d".toList ++ (',' :: '\n' ::
            ((",\n".intercalate ((next :: rows).map (·.json))).toList ++ "\n]\n".toList)) =
          "  \x7d,".toList ++ '\n' ::
            ((",\n".intercalate ((next :: rows).map (·.json))).toList ++ "\n]\n".toList) := rfl
      rw [hlines, List.append_assoc, foundIn_json, List.cons_append, List.cons_append, hend,
        foundIn_line_append (by decide), hrest]
      rfl

/-- The frames of a plan are read back from its listing, byte for byte and in order. -/
theorem listedFrames?_planListing (json : Bool) (plans : List StagePlan) :
    listedFrames? json (planListing json plans) =
      some ((planRows plans).map fun r => r.frame.encode) := by
  have hread : ∀ rows : List FrameRow,
      (rows.map fun r => (bytesText r.frame.encode).toList).mapM octets? =
        some (rows.map fun r => r.frame.encode) := by
    intro rows
    induction rows with
    | nil => rfl
    | cons r rows ih =>
      have hframe : octets? (bytesText r.frame.encode).toList = some r.frame.encode :=
        octets?_bytesText (List.cons_ne_nil _ _)
      rw [List.map_cons, List.mapM_cons, hframe, ih]
      rfl
  cases json with
  | false =>
    have hfound := foundIn_frameLines (planRows plans) (planSummary plans).toList
    rw [foundIn_planSummary, List.append_nil, ← String.toList_append] at hfound
    rw [listedFrames?, planListing, if_neg Bool.false_ne_true, if_neg Bool.false_ne_true, hfound,
      hread]
  | true =>
    rw [listedFrames?, planListing, if_pos rfl, if_pos rfl, frameJson]
    by_cases hempty : planRows plans = []
    · rw [hempty]
      rfl
    · have hlines : ("[\n" ++ ",\n".intercalate ((planRows plans).map (·.json)) ++ "\n]\n").toList =
          ['['] ++ '\n' :: ((",\n".intercalate ((planRows plans).map (·.json))).toList ++
            "\n]\n".toList) := by
        rw [String.toList_append, String.toList_append, List.append_assoc]
        rfl
      rw [if_neg (by simpa using hempty), hlines, foundIn_line_append (by decide),
        foundIn_jsonRows hempty]
      exact hread _

end MotionRack.Console
