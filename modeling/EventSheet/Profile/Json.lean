import EventSheet.Profile
import EventSheet.Json.Decoder
namespace EventSheet

/-! Profiling samples as JSON. -/

open Json.Decoder

namespace Duration

/-- Seconds and nanoseconds, both present and nothing else. -/
def decode : Json.Decoder Duration
  | levels + 1, document => do
      let known := match document with
        | .object members =>
            members.all fun member =>
              member.1 = some "secs" || member.1 = some "nanos"
        | _ => true
      if !known then none
      match ← fields? ["secs", "nanos"] document with
      | [seconds, nanoseconds] =>
          let seconds ← required (natBelow UInt64.size) levels seconds
          let nanoseconds ← required (natBelow UInt32.size) levels nanoseconds
          ofParts? seconds nanoseconds
      | _ => none
  | 0, _ => none

end Duration

namespace Percent

/-- Any number, rounded to a 32-bit float in one step. -/
def decode : Json.Decoder Percent
  | _, .number (some (.natural value)) =>
      some ⟨(UInt64.ofNat value).toFloat32.toBits⟩
  | _, .number (some (.negative magnitude)) =>
      some ⟨(-(UInt64.ofNat magnitude).toFloat32).toBits⟩
  | _, .number (some (.double bits)) => some (.ofFloat (Float.ofBits bits))
  | _, _ => none

end Percent

namespace Sample

def decode : Json.Decoder Sample :=
  record ["total_time_during_last_session", "percent_during_last_session"] fun levels entries => do
    match entries with
    | [time, percent] =>
        let time ← required Duration.decode levels time
        let percent ← required Percent.decode levels percent
        return ⟨time, percent⟩
    | _ => none

end Sample

end EventSheet
