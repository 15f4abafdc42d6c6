import Formulary.CommandLine.Argument

/-!
This module contains what the arguments ask for as a whole.
-/

namespace Formulary

structure Options where
  unicode : Bool
  verbose : Bool
  deriving DecidableEq, Repr

inductive Request where
  | help
  | start (options : Options)
  deriving DecidableEq, Repr

namespace Options

def default : Options :=
  ⟨false, false⟩

def set (options : Options) : Flag → Options
  | .help => options
  | .unicode => { options with unicode := true }
  | .verbose => { options with verbose := true }

end Options

namespace Request

/--
What the arguments ask for. They act from left to right, so that whichever comes first of an error
and a call for help decides; arguments that mean nothing are refused at the very end.
-/
def ofArguments (texts : List String) : Except OptionError Request :=
  match Argument.ofTexts texts with
  | .error error => .error error
  | .ok arguments => go .default [] arguments
where
  go (options : Options) (unrecognized : List String) : List Argument → Except OptionError Request
    | [] =>
      if unrecognized.isEmpty then
        .ok (.start options)
      else
        .error (.unrecognized unrecognized)
    | .other text :: arguments => go options (unrecognized ++ [text]) arguments
    | argument :: arguments =>
      match argument.flags with
      | .error error => .error error
      | .ok flags =>
        if .help ∈ flags then
          .ok .help
        else
          go (flags.foldl Options.set options) unrecognized arguments

end Request

end Formulary
