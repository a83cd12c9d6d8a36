import ConsoleLog.Builder
import ConsoleLog.Proofs.Timestamp

/-!
# Which setting counts

Of each setting the last step that gives it counts, and a step that leaves it out leaves it alone. What
no step gives is looked up in the environment when the exporter is built: only then is the format read
and the text of the flag judged.
-/

namespace ConsoleLog

/-! ## What a step gives -/

namespace BuildStep

def config? : BuildStep → Option HostConfig
  | .config text => (HostConfig.read text).toOption
  | _ => none

def colors? : BuildStep → Option (List ColorEntry)
  | .policy es => some es
  | s => s.config?.bind (·.colors)

def policy? (s : BuildStep) : Option ColorPolicy :=
  s.colors?.bind fun es => (ColorPolicy.ofEntries es).toOption

end BuildStep

namespace Builder

variable {σ : Type}

end Builder

/-! ## What the environment gives -/

namespace Environment

end Environment

/-! ## Building -/

namespace Builder

variable {σ : Type}

end Builder

end ConsoleLog
