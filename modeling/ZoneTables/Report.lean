import ZoneTables.Document.Basic

/-!
# Reports

A short summary of a document for the person who runs the command, in color
if the terminal shows it.
-/

namespace ZoneTables.Report

inductive Style where
  | dim
  | bold
  | green
  | yellow
  | blue
  | cyan
  | gray
deriving DecidableEq

namespace Style

def code : Style → String
  | dim => "2"
  | bold => "1"
  | green => "32"
  | yellow => "33"
  | blue => "34"
  | cyan => "36"
  | gray => "90"

end Style

def paint (color : Bool) (style : Style) (text : String) : String :=
  if color then "\x1b[" ++ style.code ++ "m" ++ text ++ "\x1b[0m" else text

def labelled (color : Bool) (style : Style) (label : String) (n : Nat) :
    String :=
  paint color .dim (label ++ ":") ++ " " ++ paint color style (toString n)

def heading (color : Bool) (title : String) : List String :=
  ["", paint color .gray ("━━━ " ++ title ++ " ━━━")]

def commentCount (color : Bool) (label : String) (m : CommentMap) : String :=
  "  " ++ labelled color (if m.isEmpty then .dim else .yellow) label m.size

def tableLines (color : Bool) (d : Document) : List String :=
  let c := d.context.counts
  let green := labelled color .green
  let blue := labelled color .blue
  ["  " ++ "  ".intercalate [green "zones" c.zones, green "eras" c.eras,
      green "links" c.links, green "policies" c.policies,
      green "rules" c.rules],
    "  " ++ "  ".intercalate [blue "letters" d.letters.size,
      blue "formats" d.formats.size, blue "fragments" d.fragments.size],
    "  " ++ paint color .dim "accurate:" ++ " " ++ d.context.accurate.text ++
      "  " ++ paint color .dim "truncated:" ++
      s!" lower={d.context.cutBefore} upper={d.context.cutAfter}"]

def namedPeaks : Nat := 5

def sizeLines (color : Bool) (sizes : BufferSizes) : List String :=
  let peaks := sizes.peaks
  let total := toString peaks.length
  let greatest :=
    paint color .bold (paint color .green (toString sizes.greatest))
  ("  " ++ paint color .dim "max:" ++ " " ++ greatest ++ "  " ++
      paint color .dim ("reached by " ++ total ++ " zones")) ::
    (peaks.take namedPeaks).map (fun (zone, year) =>
      "    " ++ paint color .blue zone ++ " " ++
        paint color .dim s!"in {year}") ++
    if peaks.length ≤ namedPeaks then []
    else
      ["    " ++ paint color .dim s!"... +{peaks.length - namedPeaks} more"]

def commentLines (color : Bool) (c : Comments) : List String :=
  [commentCount color "removed zones" c.removedZones,
    commentCount color "removed policies" c.removedPolicies,
    commentCount color "removed links" c.removedLinks,
    commentCount color "notable zones" c.notableZones,
    commentCount color "notable policies" c.notablePolicies]

def title (d : Document) : String :=
  let c := d.context
  let version := if c.version = "" then "(unversioned)" else c.version
  s!"⚙  tzdb {version} → {c.scope.name} scope {c.window.text}"

def lines (color : Bool) (time : String) (d : Document) : List String :=
  ["", paint color .bold (paint color .cyan (title d))] ++
    heading color "Database" ++ tableLines color d ++
    heading color "Buffer size" ++ sizeLines color d.context.sizes ++
    heading color "Comments" ++ commentLines color d.comments ++
    heading color "Timing" ++
    ["  Total: " ++ paint color .green time, ""]

end ZoneTables.Report
