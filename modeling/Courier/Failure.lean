import Courier.Json.Reader
import Courier.Value.Display

/-!
# Failures

What can go wrong, by cause. A failure has a kind, which handlers choose by, and a message. Failures
of a collaborator (a messenger, a report source, a hook) carry the kind and the arguments that it
gave.

A cancellation is not an error: it asks a task to stop, and handlers of errors let it pass.
-/

namespace Courier

/-- The kinds of failure that a collaborator reports. -/
inductive CollaboratorKind where
  | runtime
  | value
  | key
  | type
  | lookup
  | system
  | general
  | timeout
  | arithmetic
  | cancelled
  | reportUnavailable
  | invalidPayload
  | scripting
deriving DecidableEq, Repr

inductive Failure where
  | malformedInteger (text : String)
  | integerTooLong (digits : Nat)
  | notNumeric (kindName : String)
  | infiniteInteger
  | undefinedInteger
  | notIterable (kindName : String)
  | notPair (index : Nat) (length : Nat)
  | notSequence (index : Nat)
  | noMember (owner member : String)
  | notMachineInteger (kindName : String)
  | notOrdered (kindName otherKind : String)
  | notKey (kindName : String)
  | dateOutOfRange
  | spanTooLong (days : Int)
  | machineIntegerTooLarge
  | realIntegerTooLarge
  | columnIntegerTooLarge
  | unsupportedParameter (index : Nat) (kindName : String)
  | missingColumn (table column : String)
  | storeClosed
  | storeFault (message : String)
  | malformedJson (problem : Json.Problem) (place : Json.Place)
  | invalidPayload (message : String)
  | reportUnavailable (message : String)
  | notRegistered (kind name : String)
  | nameRequired (kind : String)
  | fieldNameRequired (owner : String)
  | duplicateField (owner field : String)
  | misfitArguments (message : String)
  | noHookRunning
  | tooDeep
  | settingMissing (name : String)
  | settingNotInteger (name : String)
  | settingTooSmall (name : String)
  | unknownLevel (level : String)
  | levelNotInteger
  | reservedField (name : String)
  | malformedUrl (message : String)
  | transport (kind message : String)
  | collaborator (kind : CollaboratorKind) (args : List Value)
deriving Inhabited

namespace CollaboratorKind

def name : CollaboratorKind → String
  | runtime => "RuntimeError"
  | value => "ValueError"
  | key => "KeyError"
  | type => "TypeError"
  | lookup => "LookupError"
  | system => "OSError"
  | general => "Exception"
  | timeout => "TimeoutError"
  | arithmetic => "ArithmeticError"
  | cancelled => "CancelledError"
  | reportUnavailable => "ReportUnavailable"
  | invalidPayload => "InvalidPayload"
  | scripting => "ScriptingError"

/-- The narrower kind of a system failure, by its error number. -/
def systemName : Int → String
  | 1 | 13 => "PermissionError"
  | 2 => "FileNotFoundError"
  | 3 => "ProcessLookupError"
  | 4 => "InterruptedError"
  | 10 => "ChildProcessError"
  | 11 | 114 | 115 => "BlockingIOError"
  | 17 => "FileExistsError"
  | 20 => "NotADirectoryError"
  | 21 => "IsADirectoryError"
  | 32 | 108 => "BrokenPipeError"
  | 103 => "ConnectionAbortedError"
  | 104 => "ConnectionResetError"
  | 110 => "TimeoutError"
  | 111 => "ConnectionRefusedError"
  | _ => "OSError"

end CollaboratorKind

namespace Failure

def argumentsText (args : List Value) : String :=
  "(" ++ ", ".intercalate (Value.quotedItems args) ++ ")"

def numberedText (number text : Value) : String :=
  "[Errno " ++ number.display ++ "] " ++ text.display

/-- The files that a system failure names, if it names any. -/
def filesText (file other : Value) : String :=
  if file.isNull then ""
  else ": " ++ file.quoted ++ if other.isNull then "" else " -> " ++ other.quoted

/-- The message of a failure with these arguments. A failed look-up quotes the key that it did not
find; a system failure with a number shows it in front of its text. -/
def collaboratorMessage (kind : CollaboratorKind) (args : List Value) : String :=
  match kind, args with
  | _, [] => ""
  | .key, [key] => key.quoted
  | _, [arg] => arg.display
  | .system, [number, text] | .timeout, [number, text] => numberedText number text
  | .system, number :: text :: file :: more | .timeout, number :: text :: file :: more =>
    if more.length ≤ 2 then numberedText number text ++ filesText file (more[1]?.getD .null)
    else argumentsText args
  | _, args => argumentsText args

def collaboratorName (kind : CollaboratorKind) (args : List Value) : String :=
  match kind, args with
  | .system, .int number :: _ :: more =>
    if more.length ≤ 3 then CollaboratorKind.systemName number else kind.name
  | kind, _ => kind.name

def kind : Failure → String
  | malformedInteger _ => "ValueError"
  | integerTooLong _ => "ValueError"
  | notNumeric _ => "TypeError"
  | infiniteInteger => "OverflowError"
  | undefinedInteger => "ValueError"
  | notIterable _ => "TypeError"
  | notPair _ _ => "ValueError"
  | notSequence _ => "TypeError"
  | noMember _ _ => "AttributeError"
  | notMachineInteger _ => "TypeError"
  | notOrdered _ _ => "TypeError"
  | notKey _ => "TypeError"
  | dateOutOfRange => "OverflowError"
  | spanTooLong _ => "OverflowError"
  | machineIntegerTooLarge => "OverflowError"
  | realIntegerTooLarge => "OverflowError"
  | columnIntegerTooLarge => "OverflowError"
  | unsupportedParameter _ _ => "ProgrammingError"
  | missingColumn _ _ => "IntegrityError"
  | storeClosed => "ProgrammingError"
  | storeFault _ => "OperationalError"
  | malformedJson _ _ => "JSONDecodeError"
  | invalidPayload _ => "InvalidPayload"
  | reportUnavailable _ => "ReportUnavailable"
  | notRegistered _ _ => "NotFound"
  | nameRequired _ => "ValueError"
  | fieldNameRequired _ => "ValueError"
  | duplicateField _ _ => "DuplicateField"
  | misfitArguments _ => "TypeError"
  | noHookRunning => "RuntimeError"
  | tooDeep => "RecursionError"
  | settingMissing _ => "ValueError"
  | settingNotInteger _ => "ValueError"
  | settingTooSmall _ => "ValueError"
  | unknownLevel _ => "ValueError"
  | levelNotInteger => "TypeError"
  | reservedField _ => "KeyError"
  | malformedUrl _ => "InvalidURL"
  | transport kind _ => kind
  | collaborator kind args => collaboratorName kind args

/-- The beginning of a quoted text, as far as messages show it. -/
def shownLength : Nat := 200

def message : Failure → String
  | malformedInteger text =>
    "invalid literal for int() with base 10: " ++
      String.ofList ((Text.quoted text).toList.take shownLength)
  | integerTooLong digits =>
    "Exceeds the limit (" ++ toString Number.digitLimit ++
      " digits) for integer string conversion: value has " ++ toString digits ++
      " digits; use sys.set_int_max_str_digits() to increase the limit"
  | notNumeric kindName =>
    "int() argument must be a string, a bytes-like object or a real number, not '" ++ kindName ++
      "'"
  | infiniteInteger => "cannot convert float infinity to integer"
  | undefinedInteger => "cannot convert float NaN to integer"
  | notIterable kindName => "'" ++ kindName ++ "' object is not iterable"
  | notPair index length =>
    "dictionary update sequence element #" ++ toString index ++ " has length " ++
      toString length ++ "; 2 is required"
  | notSequence index =>
    "cannot convert dictionary update sequence element #" ++ toString index ++ " to a sequence"
  | noMember owner member => "'" ++ owner ++ "' object has no attribute '" ++ member ++ "'"
  | notMachineInteger kindName => "'" ++ kindName ++ "' object cannot be interpreted as an integer"
  | notOrdered kindName otherKind =>
    "'<=' not supported between instances of '" ++ kindName ++ "' and '" ++ otherKind ++ "'"
  | notKey kindName => "unhashable type: '" ++ kindName ++ "'"
  | dateOutOfRange => "date value out of range"
  | spanTooLong days => "days=" ++ toString days ++ "; must have magnitude <= 999999999"
  | machineIntegerTooLarge => "Python int too large to convert to C int"
  | realIntegerTooLarge => "int too large to convert to float"
  | columnIntegerTooLarge => "Python int too large to convert to SQLite INTEGER"
  | unsupportedParameter index kindName =>
    "Error binding parameter " ++ toString index ++ ": type '" ++ kindName ++ "' is not supported"
  | missingColumn table column => "NOT NULL constraint failed: " ++ table ++ "." ++ column
  | storeClosed => "Cannot operate on a closed database."
  | storeFault message => message
  | malformedJson problem place =>
    problem.wording ++ ": line " ++ toString place.line ++ " column " ++ toString place.column ++
      " (char " ++ toString place.offset ++ ")"
  | invalidPayload message => message
  | reportUnavailable message => message
  | notRegistered kind name => kind ++ " not registered: " ++ name
  | nameRequired kind => kind ++ " name is required"
  | fieldNameRequired owner => "field name is required in '" ++ owner ++ "'"
  | duplicateField owner field => "field '" ++ field ++ "' declared twice in '" ++ owner ++ "'"
  | misfitArguments message => message
  | noHookRunning => "no script hook is running"
  | tooDeep => "maximum recursion depth exceeded"
  | settingMissing name => "Missing " ++ name ++ " in environment."
  | settingNotInteger name => "Invalid " ++ name ++ ": expected an integer."
  | settingTooSmall name => "Invalid " ++ name ++ ": must be at least 1."
  | unknownLevel level => "Unknown level: " ++ Text.quoted level
  | levelNotInteger => "level must be an integer"
  | reservedField name => Text.quoted ("Attempt to overwrite '" ++ name ++ "' in LogRecord")
  | malformedUrl message => message
  | transport _ message => message
  | collaborator kind args => collaboratorMessage kind args

/-- Whether the failure asks a task to stop, and is no error. -/
def isCancellation : Failure → Bool
  | collaborator .cancelled _ => true
  | _ => false

/-- Whether a report source gave this failure as its answer. -/
def isUnavailable : Failure → Bool
  | reportUnavailable _ => true
  | collaborator .reportUnavailable _ => true
  | _ => false

/-- Whether the failure is that of a text or a number that cannot be converted to a whole number. -/
def isConversion : Failure → Bool
  | malformedInteger _ | integerTooLong _ | notNumeric _ | undefinedInteger => true
  | _ => false

def cancellation : Failure :=
  collaborator .cancelled []

/-- Kinds that are named with the place they are defined in. -/
def qualifiedKind (f : Failure) : String :=
  match f.kind with
  | "CancelledError" => "asyncio.exceptions.CancelledError"
  | "JSONDecodeError" => "json.decoder.JSONDecodeError"
  | "OperationalError" => "sqlite3.OperationalError"
  | "ProgrammingError" => "sqlite3.ProgrammingError"
  | "IntegrityError" => "sqlite3.IntegrityError"
  | "NotFound" => "autoscript.scripting_lib.errors.NotFound"
  | "DuplicateField" => "autoscript.scripting_lib.errors.DuplicateField"
  | "InvalidPayload" => "autoscript.scripting_lib.errors.InvalidPayload"
  | "ReportUnavailable" => "autoscript.scripting_lib.errors.ReportUnavailable"
  | "ScriptingError" => "autoscript.scripting_lib.errors.ScriptingError"
  | kind => kind

/-- The kind and the message on one line, as a log shows them. -/
def trace (f : Failure) : String :=
  if f.message.isEmpty then f.qualifiedKind else f.qualifiedKind ++ ": " ++ f.message

def ofReadError : Json.ReadError → Failure
  | .syntaxAt problem place => malformedJson problem place
  | .integerTooLong digits => integerTooLong digits

end Failure

end Courier
