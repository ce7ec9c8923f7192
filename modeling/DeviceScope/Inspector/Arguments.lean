import DeviceScope.Inspector.Request

/-!
# Arguments

A request comes as a list of arguments. Words name, one after another, what is to be done, from
the program itself down to a command (`Level`). Options may stand at every level: `--store PATH`,
`--store=PATH`, `-s PATH`, `-sPATH` and `-s=PATH` are the same. An argument that begins with a
hyphen is an option or a switch, except behind `--`; so the value of an option may not begin with
one if it is an argument of its own.

An option may stand once at each level; the innermost level that has it counts, and a variable of
the environment counts if no level has it. A variable stands at every level, though, and is
refused there if it is empty. Arguments that ask for help or for the version are answered as soon
as they are reached.
-/

namespace DeviceScope.Inspector

/-- A place on the way from the program to what it is to do. -/
inductive Level where
  | program
  | list
  | detail
  | verify
  | stats
  | apply
  | remove
  | config
  | check
  deriving DecidableEq, Repr, Inhabited

namespace Level

/-- The levels that can follow, by their names. -/
def children : Level → List (String × Level)
  | .program => [("list", .list), ("show", .detail), ("verify", .verify), ("stats", .stats),
      ("apply", .apply), ("remove", .remove), ("config", .config)]
  | .config => [("check", .check)]
  | _ => []

/-- Whether another level has to follow. -/
def isOpen (level : Level) : Bool := !level.children.isEmpty

def switches : Level → List String
  | .list => ["absent", "present"]
  | _ => []

/-- Whether a word may stand at a level as what the command is about. -/
def admits : Level → String → Bool
  | .detail, _ | .verify, _ | .remove, _ => true
  | .apply, word => word ≠ ""
  | _, _ => false

end Level

/-- An option that may stand at every level. -/
inductive Setting where
  | store
  | config
  | format
  /-- How much is logged; nothing is. -/
  | logLevel
  deriving DecidableEq, Repr

namespace Setting

/-- The options by their names. -/
def names : List (String × Setting) :=
  [("store", .store), ("config", .config), ("format", .format), ("log-level", .logLevel)]

/-- The options by their letters. -/
def letters : List (Char × Setting) := [('s', .store), ('c', .config), ('f', .format)]

/-- Whether an option can have a value. -/
def accepts : Setting → String → Bool
  | .store, value | .config, value => value ≠ ""
  | .format, value => (Format.ofName? value).isSome
  | .logLevel, _ => true

/-- The variable of the environment that stands in for an option. -/
def standIn? : Setting → Option String
  | .store => some "EDGE_SCOPE_STORE"
  | .config => some "EDGE_SCOPE_CONFIG"
  | _ => none

def valueIn? (environment : Environment) (setting : Setting) : Option String :=
  setting.standIn?.bind fun name => environment.lookup name

end Setting

/-- Why arguments are no request. -/
inductive Halt where
  /-- They are not understood. -/
  | misuse
  /-- They ask what can be asked at a level. -/
  | help (level : Level)
  /-- They ask for the version. -/
  | version
  deriving DecidableEq, Repr, Inhabited

/-! ### Single arguments -/

/-- What an argument means at a level. -/
inductive Meaning where
  | word (text : String)
  /-- From here on all arguments are words. -/
  | onlyWords
  /-- An option; its value is the next argument if it has none here. -/
  | option (setting : Setting) (value : Option String)
  | switch (name : String)
  | halt (reason : Halt)
  deriving DecidableEq, Repr

namespace Meaning

/-- The meaning of a name behind two hyphens, with the value behind an equals sign, if there is
one. -/
def ofName (level : Level) (name : String) (value : Option String) : Meaning :=
  match Setting.names.lookup name with
  | some setting => .option setting value
  | none =>
    if value.isSome then .halt .misuse
    else if name = "help" then .halt (.help level)
    else if name = "version" ∧ level = .program then .halt .version
    else if name ∈ level.switches then .switch name
    else .halt .misuse

/-- The meaning of a letter behind one hyphen, with what follows it. -/
def ofLetter (level : Level) (letter : Char) (rest : List Char) : Meaning :=
  match Setting.letters.lookup letter with
  | some setting =>
    .option setting (match rest with
      | [] => none
      | '=' :: value => some (String.ofList value)
      | value => some (String.ofList value))
  | none =>
    if letter = 'h' then .halt (.help level)
    else if letter = 'V' ∧ level = .program then .halt .version
    else .halt .misuse

def ofText (level : Level) (text : String) : Meaning :=
  match text.toList with
  | ['-', '-'] => .onlyWords
  | '-' :: '-' :: rest =>
    ofName level (String.ofList (rest.takeWhile (· ≠ '=')))
      ((rest.dropWhile (· ≠ '=')).tail?.map String.ofList)
  | '-' :: letter :: rest => ofLetter level letter rest
  | _ => .word text

/-- Whether an argument can be the value of the option in front of it. -/
def isWord (text : String) : Bool :=
  match ofText .program text with
  | .word _ => true
  | _ => false

end Meaning

/-! ### All arguments -/

/-- What stands at one level. -/
structure Clause where
  level : Level
  /-- The options with their values. -/
  values : List (Setting × String)
  /-- The switches. -/
  switches : List String
  /-- What the command is about. -/
  operand : Option String
  deriving Repr, Inhabited

namespace Clause

/-- A level at which nothing stands yet. -/
def start (level : Level) : Clause := ⟨level, [], [], none⟩

def takeOption (clause : Clause) (setting : Setting) (value : String) : Except Halt Clause :=
  if setting.accepts value ∧ clause.values.lookup setting = none then
    .ok { clause with values := (setting, value) :: clause.values }
  else .error .misuse

def takeSwitch (clause : Clause) (name : String) : Except Halt Clause :=
  if name ∈ clause.switches then .error .misuse
  else .ok { clause with switches := name :: clause.switches }

/-- Takes in what the command is about. -/
def takeWord (clause : Clause) (word : String) : Except Halt Clause :=
  if clause.level.admits word ∧ clause.operand = none then
    .ok { clause with operand := some word }
  else .error .misuse

/-- The command of a level, if what it needs stands there. -/
def job? (clause : Clause) : Option Job :=
  match clause.level with
  | .program | .config => none
  | .list =>
    match clause.switches with
    | [] => some (.useStore (.list .all))
    | ["present"] => some (.useStore (.list .present))
    | ["absent"] => some (.useStore (.list .absent))
    | _ => none
  | .detail => clause.operand.map fun id => .useStore (.detail id)
  | .verify => clause.operand.map fun id => .useStore (.verify id)
  | .stats => some (.useStore .stats)
  | .apply => clause.operand.map fun file => .useStore (.apply file)
  | .remove => clause.operand.map fun id => .useStore (.remove id)
  | .check => some .checkConfig

/-- Answers the words behind `help`, which name a level. -/
def helpFor (level : Level) : List String → Halt
  | [] => .help level
  | "help" :: rest => if level.isOpen ∧ rest.isEmpty then .help level else .misuse
  | name :: rest =>
    match level.children.lookup name with
    | some child => helpFor child rest
    | none => .misuse

/-- Reads arguments at a level where `clause` stands already, and at the levels that follow; the
outermost level comes first. -/
def read (clause : Clause) (onlyWords : Bool) : List String → Except Halt (List Clause)
  | [] => .ok [clause]
  | text :: rest =>
    match if onlyWords then .word text else Meaning.ofText clause.level text with
    | .onlyWords => read clause true rest
    | .halt reason => .error reason
    | .switch name => do
      let clause ← clause.takeSwitch name
      read clause onlyWords rest
    | .option setting (some value) => do
      let clause ← clause.takeOption setting value
      read clause onlyWords rest
    | .option setting none =>
      -- The value may be a word that would name a level by itself.
      match rest with
      | [] => .error .misuse
      | value :: rest =>
        if Meaning.isWord value then do
          let clause ← clause.takeOption setting value
          read clause onlyWords rest
        else .error .misuse
    | .word text =>
      if onlyWords ∨ !clause.level.isOpen then do
        let clause ← clause.takeWord text
        read clause onlyWords rest
      -- What follows `help` is never read as options.
      else if text = "help" then .error (helpFor clause.level rest)
      else
        match clause.level.children.lookup text with
        | none => .error .misuse
        | some child => (read (.start child) false rest).map (clause :: ·)

end Clause

namespace Request

/-- The value of an option at the innermost level that has it, or else in the environment. -/
def valueOf? (environment : Environment) (clauses : List Clause) (setting : Setting) :
    Option String :=
  (clauses.reverse.findSome? fun clause => clause.values.lookup setting).or
    (setting.valueIn? environment)

/-- Whether an option may be left to the environment wherever it is. -/
def isCovered (environment : Environment) (clauses : List Clause) (setting : Setting) : Bool :=
  (setting.valueIn? environment).all setting.accepts ||
    clauses.all fun clause => (clause.values.lookup setting).isSome

/-- The request that stands at the levels. -/
def ofClauses (environment : Environment) (clauses : List Clause) : Except Halt Request :=
  match clauses.getLast?.bind Clause.job? with
  | none => .error .misuse
  | some job =>
    if isCovered environment clauses .store && isCovered environment clauses .config then
      .ok {
        job
        store := valueOf? environment clauses .store
        config := valueOf? environment clauses .config
        format := ((valueOf? environment clauses .format).bind Format.ofName?).getD .table }
    else .error .misuse

def ofArguments (environment : Environment) (arguments : List String) : Except Halt Request :=
  (Clause.read (.start .program) false arguments).bind (ofClauses environment)

end Request

end DeviceScope.Inspector
