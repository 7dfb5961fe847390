import SoliditySynth.Failure
import SoliditySynth.Generation
import SoliditySynth.StandardJson

namespace SoliditySynth.Workbench

variable {σ : Type} [Random.Sampler σ]

def program (bench : Workbench σ) (format : Format) : Except Failure String × Workbench σ :=
  match Synth.program.run bench with
  | (.error fault, bench') => (.error (.generation fault), bench')
  | (.ok text, bench') =>
    match format.render text with
    | .error fault => (.error (.splitting fault), bench')
    | .ok shown => (.ok shown, bench')

def programs (bench : Workbench σ) (format : Format) :
    Nat → Except Failure (List String) × Workbench σ
  | 0 => (.ok [], bench)
  | n + 1 =>
    match bench.program format with
    | (.error failure, bench') => (.error failure, bench')
    | (.ok text, bench') =>
      match bench'.programs format n with
      | (.error failure, bench'') => (.error failure, bench'')
      | (.ok texts, bench'') => (.ok (text :: texts), bench'')

end SoliditySynth.Workbench
