import TestScript.Command.Switch
import TestScript.Text

namespace TestScript

/-- What help can be asked about. -/
inductive Topic where
  | program
  | command (name : CommandName)
  | help
  deriving DecidableEq, Repr

def CommandName.summary : CommandName → String
  | .lessons => "List catalog lessons"
  | .actions => "List registered actions and their locator kinds"
  | .lesson => "Render a catalog lesson"
  | .sequence => "Build a custom sequence from step specs and render it"

namespace Switch

/-- What stands in the place of the value of a switch. -/
def placeholder : Switch → String
  | .lesson => "LESSON"
  | .tab => "TAB"
  | .step => "STEPS"
  | .output => "OUTPUT"
  | .verbose | .help | .version | .json => ""

/-- The letter and the word of a switch, and its value. -/
def usage (s : Switch) : String :=
  let letter := match s.letter? with
    | some letter => "-" ++ String.singleton letter ++ ", "
    | none => "    "
  letter ++ "--" ++ s.word ++ if s.takesValue then " <" ++ s.placeholder ++ ">" else ""

/-- What a switch does. The page on a lesson names the preset one. -/
def summary (preset : Option String) (topic : Topic) : Switch → String
  | .verbose => "Log debug output to stderr"
  | .help => "Print help"
  | .version => "Print version"
  | .json => "Print JSON instead of text"
  | .lesson => "Lesson position (0-based) or title [env: STEP_SCRIPT_LESSON=" ++ preset.getD "" ++
      "] [default: 0]"
  | .tab =>
    if topic = .command .sequence then "practice (table) or script [default: practice]"
    else "learn (table) or script [default: learn]"
  | .step => "action|locatorKind|locator[|testData[|expectedResult[|description]]]"
  | .output => "Write output to file instead of stdout"

end Switch

namespace Topic

/-- A heading, and two columns below it. -/
def columns (heading : String) (rows : List (String × String)) : String :=
  let width := (rows.map (·.1.length)).foldl max 0
  heading ++ ":\n" ++ String.join (rows.map fun (left, right) =>
    "  " ++ Text.padEnd width left ++ "  " ++ right ++ "\n")

def page (about usage : String) (parts : List String) : String :=
  about ++ "\n\nUsage: " ++ TestScript.program ++ " " ++ usage ++ "\n" ++
    String.join (parts.map ("\n" ++ ·))

def options (preset : Option String) (topic : Topic) (switches : List Switch) : String :=
  columns "Options" (switches.map fun s => (s.usage, s.summary preset topic))

/-- The summary of the word that asks for help. -/
def helpSummary : String := "Print this message or the help of the given subcommand(s)"

def text (preset : Option String) : Topic → String
  | .program =>
    page "Browse curated QA lessons and generate automation scripts from test steps"
      "[OPTIONS] <COMMAND>"
      [columns "Commands"
        (CommandName.all.map (fun name => (name.word, name.summary)) ++ [("help", helpSummary)]),
       options preset .program Switch.beforeCommand]
  | .command name =>
    let required := if name = .sequence then " --step <STEPS>" else ""
    page name.summary (name.word ++ " [OPTIONS]" ++ required)
      [options preset (.command name) name.switches]
  | .help =>
    page helpSummary "help [COMMAND]..."
      [columns "Arguments" [("[COMMAND]...", "Print help for the subcommand(s)")]]

end Topic

end TestScript
