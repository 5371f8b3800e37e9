import ErCanvas.Canvas.Rect
import ErCanvas.Text.Case.Upper
import ErCanvas.Text.Numeral

/-! # Settings

What can be set from outside, by variables that are texts: the secret of the web application and its
limits, the size of the canvas, the grid and the mode of routing. The environment that the program
runs in decides what is asked of the settings.

* `Settings.ofVariables`: the settings; a size that is no whole number is a fault.
* `Settings.validate`: production needs a secret of its own.
* `Settings.application`: what the web application is set up with. -/

namespace ErCanvas

/-- Where the program runs. -/
inductive Environment where
  | development
  | production
  | testing
deriving DecidableEq, Repr

namespace Environment

/-- The environment that a name stands for; other names stand for development. -/
def ofName : String → Environment
  | "production" => production
  | "testing" => testing
  | _ => development

/-- The name of the profile of an environment. -/
def profile : Environment → String
  | development => "DevelopmentConfig"
  | production => "ProductionConfig"
  | testing => "TestingConfig"

/-- Faults are shown in full. -/
def isDebugging : Environment → Bool
  | development => true
  | production | testing => false

/-- Whether tests are run, where the profile says so. -/
def isTesting? : Environment → Option Bool
  | testing => some true
  | development | production => none

end Environment

/-- The settings of the program. -/
structure Settings where
  environment : Environment
  secret : String
  /-- The greatest size of a request. -/
  maxContentLength : Int
  logLevel : String
  cellSize : Int
  canvasWidth : Int
  canvasHeight : Int
  routeMode : String
deriving DecidableEq, Repr

namespace Settings

/-- The secret that is used if none is set. -/
def standardSecret : String := "dev-secret-key-change-in-production"

/-- The settings if no variable is set. -/
def standard : Settings where
  environment := .development
  secret := standardSecret
  maxContentLength := 16 * 1024 * 1024
  logLevel := "INFO"
  cellSize := 20
  canvasWidth := 3000
  canvasHeight := 2000
  routeMode := "orthogonal"

/-- Variables that are set. -/
abbrev Variables := List (String × String)

/-- The text of a variable, or a default. -/
def textOf (vars : Variables) (name default : String) : String := (vars.lookup name).getD default

/-- The whole number that a variable holds, or a default. -/
def wholeOf (vars : Variables) (name : String) (default : Int) : Outcome Int :=
  match vars.lookup name with
  | some text => Text.readInt text
  | none => .ok default

/-- The settings from variables. -/
def ofVariables (vars : Variables) : Outcome Settings := do
  let maxContentLength ← wholeOf vars "MAX_CONTENT_LENGTH" standard.maxContentLength
  let cellSize ← wholeOf vars "GRID_SIZE" standard.cellSize
  let canvasWidth ← wholeOf vars "CANVAS_WIDTH" standard.canvasWidth
  let canvasHeight ← wholeOf vars "CANVAS_HEIGHT" standard.canvasHeight
  return {
    environment := .ofName (textOf vars "FLASK_ENV" "development")
    secret := textOf vars "SECRET_KEY" standard.secret
    maxContentLength
    logLevel := textOf vars "LOG_LEVEL" standard.logLevel
    cellSize
    canvasWidth
    canvasHeight
    routeMode := textOf vars "DEFAULT_ROUTE_MODE" standard.routeMode }

/-- The canvas that is routed on. -/
def canvas (s : Settings) : Extent := ⟨.int s.canvasWidth, .int s.canvasHeight⟩

/-- The secret has been set to one of its own. -/
def validate (s : Settings) : Outcome Unit :=
  if s.secret = standardSecret then .error .missingSecret else .ok ()

/-- A level of logging can be set by its name. A name of nothing stands for the default level, but
the name of the format of log lines and that of its styles are no levels. -/
def checkLevel (name : String) : Outcome Unit :=
  match String.ofList (Text.upper name.toList) with
  | "BASIC_FORMAT" => .error (.unknownLevel "%(levelname)s:%(name)s:%(message)s")
  | "_STYLES" => .error .wrongKind
  | _ => .ok ()

/-- The settings of the web application, which in production have to be valid. -/
def application (vars : Variables) : Outcome Settings := do
  let s ← ofVariables vars
  checkLevel s.logLevel
  if s.environment = .production then s.validate
  return s

end Settings

end ErCanvas
