namespace TestScript

/-- The name of the program. -/
def program : String := "step-script"

inductive CommandName where
  | lessons
  | actions
  | lesson
  | sequence
  deriving DecidableEq, Repr

inductive Switch where
  | verbose
  | help
  | version
  | json
  | lesson
  | tab
  | step
  | output
  deriving DecidableEq, Repr

namespace Switch

/-- The name after two dashes. -/
def word : Switch → String
  | .verbose => "verbose"
  | .help => "help"
  | .version => "version"
  | .json => "json"
  | .lesson => "lesson"
  | .tab => "tab"
  | .step => "step"
  | .output => "output"

/-- The letter after one dash. -/
def letter? : Switch → Option Char
  | .verbose => some 'v'
  | .help => some 'h'
  | .version => some 'V'
  | .json => none
  | .lesson => some 'l'
  | .tab => some 't'
  | .step => some 's'
  | .output => some 'o'

def takesValue : Switch → Bool
  | .lesson | .tab | .step | .output => true
  | .verbose | .help | .version | .json => false

/-- The switches that may stand before the command. -/
def beforeCommand : List Switch := [.verbose, .help, .version]

end Switch

namespace CommandName

def all : List CommandName := [.lessons, .actions, .lesson, .sequence]

def word : CommandName → String
  | .lessons => "list"
  | .actions => "actions"
  | .lesson => "show"
  | .sequence => "custom"

def ofWord? (word : String) : Option CommandName := all.find? (·.word = word)

/-- The switches that a command knows, in the order in which its help lists them. -/
def switches : CommandName → List Switch
  | .lessons | .actions => [.verbose, .help]
  | .lesson => [.lesson, .verbose, .tab, .json, .output, .help]
  | .sequence => [.step, .verbose, .tab, .json, .output, .help]

end CommandName

end TestScript
