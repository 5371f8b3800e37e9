import ErCanvas.Text.Quoted

/-! # Causes of failure

An operation on schemas, numbers or documents fails for one of the causes below. The wording of a
cause is in `Fault.message` alone; a cause without a wording of its own has the empty message. -/

namespace ErCanvas

/-- The cause of a failed operation. -/
inductive Fault where
  /-- An entry that is looked up by its key is not there. -/
  | missingKey (key : String)
  /-- An item is looked up by its place among entries that only have keys. -/
  | missingPlace (place : Nat)
  /-- A value of some kind has no such member. -/
  | missingMember (kind member : String)
  /-- A change to an object of some kind that has been frozen. -/
  | readOnly (kind name : String)
  /-- An attribute of an object of some kind that cannot be set. -/
  | notWritable (kind member : String)
  /-- A value of the wrong kind. -/
  | wrongKind
  /-- An object that contains itself. -/
  | endless
  /-- A place beyond the end. -/
  | outOfRange
  /-- A number too large for what it is needed as. -/
  | overflow
  /-- A quotient by zero. -/
  | divisionByZero
  /-- The whole part of something that is not a number. -/
  | floorOfNaN
  /-- A text that is not the text of a number. -/
  | notNumber (text : String)
  /-- A text that is not the text of a whole number. -/
  | notInteger (text : String)
  /-- A whole number with too many digits to be read. -/
  | tooManyDigits (count : Nat)
  /-- A text with half of a pair, where it is to be encoded. -/
  | unencodable
  /-- A node that is not open. -/
  | notListed
  /-- A route mode that does not exist. -/
  | unknownMode (mode : String)
  /-- The secret key that production needs is not set. -/
  | missingSecret
  /-- A log level that does not exist. -/
  | unknownLevel (level : String)
deriving DecidableEq, Repr, Inhabited

namespace Fault

/-- The largest number of digits that a whole number is read from. -/
def digitLimit : Nat := 4300

/-- The most characters that are shown of what is no whole number, the quote in front included. -/
def shownLimit : Nat := 200

/-- The wording of a cause. -/
def message : Fault → String
  | missingKey key => Text.quoted key
  | missingPlace place => toString place
  | missingMember kind member => "'" ++ kind ++ "' object has no attribute '" ++ member ++ "'"
  | readOnly kind name => kind ++ " " ++ name ++ " is read-only"
  | notWritable kind member =>
    "attribute '" ++ member ++ "' of '" ++ kind ++ "' objects is not writable"
  | floorOfNaN => "cannot convert float NaN to integer"
  | notNumber text => "could not convert string to float: " ++ Text.quoted text
  | notInteger text =>
    "invalid literal for int() with base 10: " ++
      String.ofList ((Text.quoted text).toList.take shownLimit)
  | tooManyDigits count =>
    "Exceeds the limit (" ++ toString digitLimit ++ " digits) for integer string conversion: " ++
      "value has " ++ toString count ++
      " digits; use sys.set_int_max_str_digits() to increase the limit"
  | notListed => "list.remove(x): x not in list"
  | unknownMode mode => "Unknown route mode: " ++ mode
  | missingSecret => "生产环境缺少必需的配置: SECRET_KEY"
  | unknownLevel level => "Unknown level: " ++ Text.quoted level
  | wrongKind | endless | outOfRange | overflow | divisionByZero | unencodable => ""

end Fault

/-- The result of an operation that may fail. -/
abbrev Outcome (α : Type) := Except Fault α

end ErCanvas
