import PagedRaster.Log.Message

/-
  This file defines the set-up of the process-wide logger.
  Only the first set-up counts.  Its filter comes from the
  configuration, else from the environment, else from a
  default that keeps two talkative libraries quiet.  The
  library that reads filters and writes messages is a
  parameter.

  Key definitions include:
    * `Log.Config`
    * `Log.Library`
    * `Log.Library.setUp`
-/

namespace PagedRaster

namespace Log

/- When the logger writes in colour. -/
inductive Style where
  | automatic
  | always
  | never
  deriving DecidableEq, Repr, Inhabited

/- A configuration of the logger. -/
structure Config where
  filter : Option String := none
  style : Style := .automatic
  deriving DecidableEq, Repr

/-
  A library of loggers, which acts in a monad.  A builder
  collects what a logger is made of; installing it fails
  where the process has a logger already.
-/
structure Library
    (m : Type → Type)
    (Builder : Type) where
  builder : Builder
  parseFilters : Builder → String → m Builder
  filterLevel : Builder → Level → Builder
  filterModule : Builder → String → Level → Builder
  writeStyle : Builder → Style → Builder
  tryInstall : Builder → m Bool
  log : Message → m Unit

/- The message that a new logger gets first. -/
def announcement : Message :=
  ⟨.debug, .setup, "logging initialized"⟩

namespace Library

variable {m : Type → Type} {Builder : Type}

/- The builder with the filter that applies by default. -/
def quiet
    (library : Library m Builder) : Builder :=
  let builder := library.filterLevel library.builder .info
  let builder :=
    library.filterModule builder "wgpu_core" .warn
  library.filterModule builder "wgpu_hal" .warn

variable [Monad m]

/- The builder with the filter of a configuration. -/
def filtered
    (library : Library m Builder)
    (environment : Option String)
    (config : Config) : m Builder :=
  match config.filter.or environment with
  | some text =>
      library.parseFilters library.builder text
  | none => pure library.quiet

/-
  Set the logger up.  Only the first call does anything, and
  it says whether there has been one.  A process whose
  logger belongs to somebody else keeps that one.
-/
def setUp
    (library : Library m Builder)
    (environment : Option String)
    (called : Bool)
    (config : Config) : m Bool := do
  if called then
    return true
  let builder ← library.filtered environment config
  let styled := library.writeStyle builder config.style
  if ← library.tryInstall styled then
    library.log announcement
  return true

end Library

end Log

end PagedRaster
