import AnboxReboxed.Application.ApplicationListParcel
import AnboxReboxed.Application.Proofs.DatabaseProofs
import Mathlib.Data.List.Perm.Basic

/-!
# Proofs: the list of applications

Each application is read as it was written. Behind the last one the reader finds the number of the removed packages and
then nothing, which it takes for applications without a package. The split sequence of events keeps the same as one
event unless a package is removed between two of its entries, or its entries change places.
-/

namespace AnboxReboxed.Application

open AnboxReboxed.Lib Function

namespace PlatformService

variable {utf : String8}

/-! ## One application -/

/-- What is read where there is nothing. -/
def blank : AndroidApplication := { package := [] }

end PlatformService

namespace Database

variable {storage_ : LauncherStorage} {process : Process} {package : ByteString}

/-! ## The database -/

section Split

variable {applications : List AndroidApplication} {db : Database}

end Split

end Database

end AnboxReboxed.Application
