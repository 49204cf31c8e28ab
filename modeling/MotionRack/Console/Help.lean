import MotionRack.Console.Grammar

/-!
# Help texts

Help texts, written from the descriptions of commands: what the command does, how it is called, and
a table of its arguments and of its options with the explanations in one column.
-/
namespace MotionRack.Console

/-- A text filled up with blanks. -/
def padded (width : Nat) (text : String) : String :=
  text ++ String.ofList (List.replicate (width - text.length) ' ')

/-- A row of a table: a term, what it means, and notes on its values. -/
structure HelpRow where
  term : String
  meaning : String := ""
  notes : String := ""

namespace HelpRow

/-- The explanation in a row. -/
def explanation (r : HelpRow) : String :=
  " ".intercalate ([r.meaning, r.notes].filter (!·.isEmpty))

/-- Whether an explanation finds no place beside terms of a width. A line has a hundred columns, of
which twelve and the width are taken; up to forty taken columns are never too many. -/
def overflows (width : Nat) (r : HelpRow) : Bool :=
  40 < width + 12 && 100 < width + 12 + (r.meaning.length + r.notes.length)

end HelpRow

/-- A table of terms and explanations. The explanations stand in one column beside the terms, or all
on lines of their own when one of them finds no place there. -/
def table (rows : List HelpRow) : String :=
  let width := (rows.map (·.term.length)).foldl max 0
  let apart := rows.any (·.overflows width)
  String.join (rows.map fun r =>
    if apart then s!"  {r.term}\n" ++ padded 10 "" ++ s!"{r.explanation}\n"
    else s!"  {padded width r.term}  {r.explanation}\n")

/-- How a positional argument is called for. -/
def PositionalSpec.render (p : PositionalSpec) : String :=
  if p.multiple then s!"<{p.name}>..." else s!"<{p.name}>"

namespace OptionSpec

/-- An option with the place of its value. -/
def render (o : OptionSpec) : String :=
  match o.value with
  | some v => s!"--{o.long} <{v}>"
  | none => s!"--{o.long}"

/-- The notes on the values of an option: its default and the choice. -/
def notes (o : OptionSpec) : String :=
  let default := match o.default with
    | some d => [s!"[default: {d}]"]
    | none => []
  let choices := if o.choices.isEmpty then [] else
    ["[possible values: " ++ ", ".intercalate o.choices ++ "]"]
  " ".intercalate (default ++ choices)

/-- The row of an option; the term keeps the place where another option has its letter. -/
def row (o : OptionSpec) : HelpRow := ⟨"    " ++ o.render, o.help, o.notes⟩

end OptionSpec

/-- The row that explains help itself. -/
def helpRow : HelpRow := ⟨"-h, --help", "Print help", ""⟩

/-- The help of a command. -/
def CommandSpec.help (program : String) (c : CommandSpec) : String :=
  let needed := (c.options.filter (·.required)).map (·.render)
  let call := [program, c.name]
    ++ (if c.options.any (!·.required) then ["[OPTIONS]"] else []) ++ needed
    ++ c.positionals.map (·.render)
  let arguments := if c.positionals.isEmpty then "" else
    "Arguments:\n" ++ table (c.positionals.map fun p => { term := p.render }) ++ "\n"
  c.about ++ "\n\nUsage: " ++ " ".intercalate call ++ "\n\n" ++ arguments ++ "Options:\n"
    ++ table (c.options.map (·.row) ++ [helpRow])

/-- The help of the program as a whole. -/
def programHelp (program about : String) (commands : List CommandSpec) : String :=
  s!"{about}\n\nUsage: {program} <COMMAND>\n\nCommands:\n"
    ++ table (commands.map fun c => ⟨c.name, c.about, ""⟩)
    ++ "\nOptions:\n" ++ table [helpRow, ⟨"-V, --version", "Print version", ""⟩]

end MotionRack.Console
