import CallablePurity.Report.Document

set_option autoImplicit false

/-! # Reports on the console

The reports on several callables for people to read: a heading, the counts, and a table with one
row for each callable, coloured by terminal escapes. -/

namespace CallablePurity

/-! ## Configuration -/

/-- What the console shows and how wide it is. -/
structure ConsoleConfig where
  /-- Pure callables are listed too. -/
  showPure : Bool
  width : Int
  wide : 40 ≤ width

inductive ConsoleFault where
  | tooNarrow (width : Int)

def ConsoleFault.message : ConsoleFault → String
  | tooNarrow width => "width must be >= 40, got " ++ toString width

namespace ConsoleConfig

def ofSettings (showPure : Bool) (width : Int) : Except ConsoleFault ConsoleConfig :=
  if h : 40 ≤ width then .ok ⟨showPure, width, h⟩ else .error (.tooNarrow width)

def standard : ConsoleConfig :=
  ⟨true, 120, by decide⟩

end ConsoleConfig

namespace Console

/-! ## Styled text -/

/-- The terminal's codes for the styles in use. -/
inductive Style where
  | bold | cyan | green | red | ruleGreen | boldCyan | boldGreen | boldRed

def Style.code : Style → String
  | bold => "1"
  | cyan => "36"
  | green => "32"
  | red => "31"
  | ruleGreen => "92"
  | boldCyan => "1;36"
  | boldGreen => "1;32"
  | boldRed => "1;31"

/-- A text in a style, after which the terminal is back to normal. -/
def styled (style : Style) (s : String) : String :=
  "\x1b[" ++ style.code ++ "m" ++ s ++ "\x1b[0m"

def blanks (n : Nat) : String :=
  String.ofList (List.replicate n ' ')

def line (c : Char) (n : Nat) : String :=
  String.ofList (List.replicate n c)

/-- Fills a text up with blanks on the right. -/
def pad (width : Nat) (s : String) : String :=
  s ++ blanks (width - s.length)

/-! ## Heading -/

/-- The title between two rules that fill the width, the longer one on the right. -/
def heading (width : Nat) : String :=
  let free := width - 15
  let left := free / 2
  styled .ruleGreen (line '─' left ++ " ") ++ styled .bold "PURITY REPORT"
    ++ styled .ruleGreen (" " ++ line '─' (free - left))

def counts (rs : Reports) : String :=
  styled .bold "Callables:" ++ " " ++ styled .boldCyan (toString rs.size) ++ " "
    ++ styled .bold "(" ++ styled .green "pure: " ++ styled .boldGreen (toString rs.pureCount)
    ++ ", " ++ styled .red "impure: " ++ styled .boldRed (toString rs.impureCount)
    ++ styled .bold ")"

/-! ## Table -/

/-- A row of the table: the lines of its label and of its reasons, and the verdict. -/
structure Row where
  label : List String
  isPure : Bool
  reasons : List String

namespace Row

/-- A label and the reasons, one to a line, as lines. -/
def ofEntry (e : String × Report) : Row :=
  { label := e.1.splitOn "\n",
    isPure := e.2.isPure,
    reasons := ("\n".intercalate e.2.violations).splitOn "\n" }

def verdict (r : Row) : String :=
  if r.isPure then "pure" else "impure"

end Row

/-- The widths of the three columns. -/
structure Widths where
  label : Nat
  verdict : Nat
  reasons : Nat

/-- The length of the longest text. -/
def longest (texts : List String) : Nat :=
  (texts.map String.length).foldl max 0

/-- Each column is as wide as its longest line, the header included. -/
def Widths.ofRows (rows : List Row) : Widths where
  label := longest ("Callable" :: rows.flatMap Row.label)
  verdict := longest ("Verdict" :: rows.map Row.verdict)
  reasons := longest ("Reasons" :: rows.flatMap Row.reasons)

/-- A line between rows, with the corners and crossings it is drawn with. -/
def border (w : Widths) (left fill crossing right : Char) : String :=
  let segment (n : Nat) : String := line fill (n + 2)
  String.singleton left ++ segment w.label ++ String.singleton crossing ++ segment w.verdict
    ++ String.singleton crossing ++ segment w.reasons ++ String.singleton right

/-- A cell whose blanks and text are all in one style. -/
def styledCell (style : Style) (width : Nat) (s : String) : String :=
  styled style " " ++ styled style (pad width s) ++ styled style " "

def header (w : Widths) : String :=
  "┃" ++ styledCell .bold w.label "Callable" ++ "┃" ++ styledCell .bold w.verdict "Verdict"
    ++ "┃" ++ styledCell .bold w.reasons "Reasons" ++ "┃"

/-- The label's cell on one line of a row; below the label it is blank. -/
def labelCell (w : Widths) : Option String → String
  | some s => styledCell .cyan w.label s
  | none => styled .cyan (blanks (w.label + 2))

/-- The verdict's cell: only the word is coloured. -/
def verdictCell (w : Widths) (r : Row) : String :=
  " " ++ styled (if r.isPure then .green else .red) r.verdict
    ++ blanks (w.verdict - r.verdict.length) ++ " "

/-- The lines of one row; the verdict stands on the first. -/
def rowLines (w : Widths) (r : Row) : List String :=
  (List.range (max r.label.length r.reasons.length)).map fun i =>
    "│" ++ labelCell w r.label[i]?
      ++ "│" ++ (if i = 0 then verdictCell w r else blanks (w.verdict + 2))
      ++ "│ " ++ pad w.reasons (r.reasons[i]?.getD "") ++ " │"

def table (rows : List Row) : List String :=
  let w := Widths.ofRows rows
  [border w '┏' '━' '┳' '┓', header w, border w '┡' '━' '╇' '┩']
    ++ rows.flatMap (rowLines w)
    ++ [border w '└' '─' '┴' '┘']

end Console

/-- The lines of the console report. -/
def Reports.consoleLines (rs : Reports) (config : ConsoleConfig) : List String :=
  let rows := (rs.entries.filter fun e => config.showPure || !e.2.isPure).map Console.Row.ofEntry
  ["", Console.heading config.width.toNat, "", Console.counts rs, ""]
    ++ (if rows.isEmpty then [] else Console.table rows ++ [""])
    ++ [""]

/-- The console report; it ends with a line break. -/
def Reports.console (rs : Reports) (config : ConsoleConfig) : String :=
  "\n".intercalate (rs.consoleLines config)

end CallablePurity
