import AnboxReboxed.Application.Database
import AnboxReboxed.Lib.Parcel

/-!
# The list of applications on its way to the host

The application manager writes the installed applications into a parcel. The service reads the parcel and sends what it
has read to the host, an application with an icon in an event of its own.
-/

namespace AnboxReboxed.Application

open AnboxReboxed.Lib

/-- A text, an array or a list of Java, which has no more elements than its size can tell. -/
abbrev JavaList (α : Type) := { l : List α // l.length < Parcel.INT32_MAX }

abbrev JavaString := JavaList UInt16

/-- The texts of a launch intent. Its component and its categories are always set. -/
structure JavaIntent where
  action : Option JavaString
  data : Option JavaString
  type : Option JavaString
  packageName : JavaString
  className : JavaString
  categories : JavaList JavaString

/-- What `sendApplicationListUpdate` gets to know about an application. -/
structure ApplicationInfo where
  name : Option JavaString
  label : Option JavaString
  packageName : JavaString
  launchIntent : Option JavaIntent
  /-- The icon as a PNG. -/
  icon : Option (JavaList UInt8)

/-- How a `String8` is made of a `String16`, and a text of that. -/
structure String8 where
  convert : List UInt16 → ByteString
  convert_nil : convert [] = []

/-! ## Writing -/

namespace ApplicationInfo

def writeText (text : Option JavaString) : Parcel := Parcel.writeString (text.map Subtype.val)

/-- What is written of an application with a launch intent and an icon. -/
def writeApplication (app : ApplicationInfo) (launchIntent : JavaIntent) (icon : JavaList UInt8) : Parcel :=
  writeText (app.label.or app.name) ++
    (writeText (some app.packageName) ++
      (writeText launchIntent.action ++
        (writeText (some (launchIntent.data.getD ⟨[], by decide⟩)) ++
          (writeText launchIntent.type ++
            (writeText (some launchIntent.packageName) ++
              (writeText (some launchIntent.className) ++
                (Parcel.writeInt launchIntent.categories.val.length ++
                  (launchIntent.categories.val.flatMap (fun category => writeText (some category)) ++
                    Parcel.writeByteArray icon.val))))))))

/-- The body of the loop. -/
def write (app : ApplicationInfo) : Parcel :=
  match app.launchIntent, app.icon with
  | some launchIntent, some icon => app.writeApplication launchIntent icon
  | _, _ => []

end ApplicationInfo

namespace PlatformService

variable (utf : String8)

def readText (p : Parcel) : ByteString × Parcel :=
  let (text, p) := Parcel.readString16 p
  (utf.convert text, p)

def readTexts : Nat → Parcel → List ByteString × Parcel
  | 0, p => ([], p)
  | n + 1, p =>
    let (text, p) := readText utf p
    let (texts, p) := readTexts n p
    (text :: texts, p)

/-- The body of the loop, up to the icon. The number of the categories has no sign. -/
def readApplication (p : Parcel) : AndroidApplication × Parcel :=
  let (name, p) := readText utf p
  let (package, p) := readText utf p
  let (action, p) := readText utf p
  let (uri, p) := readText utf p
  let (type, p) := readText utf p
  let (component_package, p) := readText utf p
  let (component_class, p) := readText utf p
  let (num_categories, p) := Parcel.readWord p
  let (categories, p) := readTexts utf num_categories.toNat p
  let (icon, p) := Parcel.readByteVector p
  ({ name
     package
     launch_intent := { action, uri, type, package := component_package, component := component_class, categories }
     icon }, p)

/-- A count that is negative is none. -/
def count (word : UInt32) : Nat := if word.toNat ≤ Parcel.INT32_MAX then word.toNat else 0

/-- `PlatformApiStub::update_application_list` -/
def event (applications : List AndroidApplication) (removed : List ByteString) : ApplicationListUpdateEvent where
  applications
  removed_applications := removed.map fun package => { name := ByteString.of "unknown", package }

end PlatformService

/-! ## What is to become of the list -/

namespace ApplicationInfo

variable (utf : String8)

def text (text : Option JavaString) : ByteString := utf.convert ((text.map Subtype.val).getD [])

/-- The application as it should arrive, if it can be launched. -/
def entry (app : ApplicationInfo) : Option AndroidApplication :=
  match app.launchIntent, app.icon with
  | some launchIntent, some icon =>
    some
      { name := text utf (app.label.or app.name)
        package := text utf (some app.packageName)
        launch_intent :=
          { action := text utf launchIntent.action
            uri := text utf launchIntent.data
            type := text utf launchIntent.type
            package := text utf (some launchIntent.packageName)
            component := text utf (some launchIntent.className)
            categories := launchIntent.categories.val.map fun category => text utf (some category) }
        icon := icon.val }
  | _, _ => none

end ApplicationInfo

/-- What has a package. -/
def named (applications : List AndroidApplication) : List AndroidApplication :=
  applications.filter fun app => app.package ≠ []

/-- Over all events there is one entry for each application that can be launched, and nothing is removed. -/
structure Listed (utf : String8) (apps : JavaList ApplicationInfo) (events : List ApplicationListUpdateEvent) :
    Prop where
  applications : (named (events.flatMap fun e => e.applications)).Perm
    (named (apps.val.filterMap fun app => app.entry utf))
  removed : ∀ e ∈ events, e.removed_applications = []

namespace PlatformService

variable (utf : String8)

/-- The applications in the order of the parcel. -/
def listed : Nat → Parcel → List AndroidApplication × Parcel
  | 0, p => ([], p)
  | n + 1, p =>
    let (app, p) := readApplication utf p
    let (applications, p) := listed n p
    (app :: applications, p)

/-- One event with all that a parcel lists. -/
def single (p : Parcel) : ApplicationListUpdateEvent :=
  let (num_packages, p) := Parcel.readWord p
  let (applications, p) := listed utf (count num_packages) p
  let (num_removed_packages, p) := Parcel.readWord p
  event applications (readTexts utf (count num_removed_packages) p).1

end PlatformService

end AnboxReboxed.Application
