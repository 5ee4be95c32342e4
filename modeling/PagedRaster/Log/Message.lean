/-
  This file defines log messages: their level, the part of
  the program that logs them, and their text.

  Key definitions include:
    * `Log.Level`
    * `Log.Target`
    * `Log.Message`
-/

namespace PagedRaster

namespace Log

/- How important a message is, most important first. -/
inductive Level where
  | error
  | warn
  | info
  | debug
  | trace
  deriving DecidableEq, Repr, Inhabited

namespace Level

/- Every level. -/
def all : List Level :=
  [.error, .warn, .info, .debug, .trace]

/- The written name of a level. -/
def name : Level → String
  | .error => "ERROR"
  | .warn => "WARN"
  | .info => "INFO"
  | .debug => "DEBUG"
  | .trace => "TRACE"

end Level

/- The part of the program that logs. -/
inductive Target where
  | tracker
  | canvas
  | gpu
  | gpuLayout
  | device
  | setup
  deriving DecidableEq, Repr, Inhabited

/- The written path of a target. -/
def Target.path : Target → String
  | .tracker => "gs_raster::draw"
  | .canvas => "gs_raster::backend::software"
  | .gpu => "gs_raster::backend::gpu"
  | .gpuLayout => "gs_raster::backend::gpu::pipeline"
  | .device => "gs_raster::device::gpu"
  | .setup => "gs_raster::logging::init"

/- A logged message. -/
structure Message where
  level : Level
  target : Target
  text : String
  deriving DecidableEq, Repr

end Log

end PagedRaster
