import AnboxReboxed.Lib.Decimal
import AnboxReboxed.Wm.MultiWindowManager

/-!
# A launch request on its way to Android

The stub on the host turns the request into a message, and the service in Android turns the message into the arguments
of `am`. What `am` makes of them stands beside it, by its rules for options. The message arrives as it was sent.
-/

namespace AnboxReboxed.Bridge

open AnboxReboxed.Lib AnboxReboxed.Wm

/-- `android::Intent`, without the flags, which nobody sends. -/
structure Intent where
  action : String := ""
  uri : String := ""
  type : String := ""
  package : String := ""
  component : String := ""
  categories : List String := []
  deriving DecidableEq

/-- `wm::Stack::Id` -/
inductive StackId where
  | Invalid
  | Default
  | Fullscreen
  | Freeform
  deriving DecidableEq

/-- `Rect::Invalid`, which stands for no rectangle. -/
def Rect.Invalid : Rect := ⟨-1, -1, -1, -1⟩

/-! ## Messages -/

/-- `protobuf::bridge::Intent` -/
structure IntentMessage where
  action : Option String := none
  uri : Option String := none
  type : Option String := none
  package : Option String := none
  component : Option String := none
  categories : List String := []

inductive StackMessage where
  | DEFAULT
  | FULLSCREEN
  | FREEFORM

def StackMessage.number : StackMessage → Int
  | .DEFAULT => 0
  | .FULLSCREEN => 1
  | .FREEFORM => 2

/-- `protobuf::bridge::LaunchApplication` -/
structure LaunchApplication where
  intent : IntentMessage := {}
  launch_bounds : Option Rect := none
  stack : Option StackMessage := none

/-- A field that is set when there is something in it. -/
def field (text : String) : Option String := if text = "" then none else some text

/-- The member of the stub, to which nothing is ever assigned. -/
def launch_bounds_ : Rect := Rect.Invalid

def StackId.message : StackId → Option StackMessage
  | .Default => some .DEFAULT
  | .Fullscreen => some .FULLSCREEN
  | .Freeform => some .FREEFORM
  | .Invalid => none

/-- `AndroidApiStub::launch` -/
def launch (intent : Intent) (launch_bounds : Rect) (stack : StackId) : LaunchApplication where
  stack := stack.message
  launch_bounds :=
    if launch_bounds ≠ Rect.Invalid then
      some ⟨launch_bounds_.left, launch_bounds_.top, launch_bounds_.right, launch_bounds_.bottom⟩
    else none
  intent :=
    { action := field intent.action
      uri := field intent.uri
      type := field intent.type
      package := field intent.package
      component := field intent.component
      categories := intent.categories }

/-! ## Arguments -/

/-- An option with its value, when there is one. -/
def option (name : String) : Option String → List String
  | some value => [name, value]
  | none => []

def bounds_text (r : Rect) : String :=
  toString r.left ++ " " ++ toString r.top ++ " " ++ toString r.right ++ " " ++ toString r.bottom

def component_text (intent : IntentMessage) : String :=
  let component := intent.package.getD ""
  match intent.component with
  | some name => if component ≠ "" then component ++ "/" ++ name else component
  | none => component

/-- `AndroidApiSkeleton::launch_application`, up to the call of `exec`. -/
def launch_application (request : LaunchApplication) : List String :=
  let intent := request.intent
  let component := component_text intent
  ["/system/bin/am", "start"] ++
    option "--stack" (request.stack.map fun stack => toString stack.number) ++
    option "--launch-bounds" (request.launch_bounds.map bounds_text) ++
    option "-a" intent.action ++
    option "-d" intent.uri ++
    option "-t" intent.type ++
    (if component ≠ "" then [component] else [])

/-! ## What `am` reads -/

/-- A request as `am start` understands it. -/
structure AmStart where
  stack : Option Int := none
  launch_bounds : Option Rect := none
  action : Option String := none
  uri : Option String := none
  type : Option String := none
  categories : List String := []
  package : String := ""
  component : String := ""
  deriving DecidableEq

namespace AmStart

def parse_bounds (text : String) : Option Rect :=
  match Decimal.parseFields text.toList with
  | some [left, top, right, bottom] => some ⟨left, top, right, bottom⟩
  | _ => none

/-- What follows the options: a package, or a package and a component with a slash between them. -/
def target (request : AmStart) (text : String) : Option AmStart :=
  if text.toList.head? = some '-' then none
  else
    some { request with
      package := String.ofList (text.toList.takeWhile (· ≠ '/'))
      component := String.ofList (text.toList.dropWhile (· ≠ '/')).tail }

def parse : AmStart → List String → Option AmStart
  | request, [] => some request
  | request, [text] => request.target text
  | request, name :: value :: args =>
    if name = "--stack" then
      (Decimal.parse value.toList).bind fun stack => parse { request with stack := some stack } args
    else if name = "--launch-bounds" then
      (parse_bounds value).bind fun bounds => parse { request with launch_bounds := some bounds } args
    else if name = "-a" then parse { request with action := some value } args
    else if name = "-d" then parse { request with uri := some value } args
    else if name = "-t" then parse { request with type := some value } args
    else if name = "-c" then parse { request with categories := request.categories ++ [value] } args
    else none

def read (argv : List String) : Option AmStart :=
  if argv.take 2 = ["/system/bin/am", "start"] then parse {} (argv.drop 2) else none

/-- The request itself. -/
def wanted (intent : Intent) (launch_bounds : Rect) (stack : StackId) : AmStart where
  stack := stack.message.map StackMessage.number
  launch_bounds := if launch_bounds = Rect.Invalid then none else some launch_bounds
  action := field intent.action
  uri := field intent.uri
  type := field intent.type
  categories := intent.categories
  package := intent.package
  component := intent.component

end AmStart

/-- A package is not taken for an option or for more than a package, and there is one if there is a component. -/
structure Intent.Plain (intent : Intent) : Prop where
  option : intent.package.toList.head? ≠ some '-'
  slash : '/' ∉ intent.package.toList
  component : intent.component ≠ "" → intent.package ≠ ""

end AnboxReboxed.Bridge
