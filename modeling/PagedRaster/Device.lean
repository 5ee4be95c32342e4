import PagedRaster.Log.Message

/-
  This file defines the request for a device: what is asked
  for, in which order, and why a request may fail.  The
  platform that has the devices is a parameter.

  Key definitions include:
    * `Platform`
    * `DeviceRequest`
    * `BringUpFault.message`
    * `DeviceRequest.bringUp`
-/

namespace PagedRaster

/- Which of several devices is preferred. -/
inductive PowerPreference where
  | none
  | low
  | high
  deriving DecidableEq, Repr

/- The written name of a preference. -/
def PowerPreference.name : PowerPreference → String
  | .none => "None"
  | .low => "LowPower"
  | .high => "HighPerformance"

/- The types that a platform brings along. -/
structure PlatformTypes where
  Backends : Type
  Features : Type
  Limits : Type
  Adapter : Type
  Device : Type

/-
  A platform, which acts in a monad: the widest choice of
  backends, the least that can be asked for, how adapters
  and devices are requested, and what an adapter says of
  itself.
-/
structure Platform
    (m : Type → Type)
    (T : PlatformTypes) where
  allBackends : T.Backends
  noFeatures : T.Features
  defaultLimits : T.Limits
  requestAdapter :
    T.Backends → PowerPreference → m (Option T.Adapter)
  writesStorage : T.Adapter → Bool
  quotedName : T.Adapter → String
  name : T.Adapter → String
  backend : T.Adapter → String
  requestDevice :
    T.Adapter → T.Features → T.Limits → m (Option T.Device)
  log : Log.Message → m Unit

/- What is asked for. -/
structure DeviceRequest
    (T : PlatformTypes) where
  backends : T.Backends
  power : PowerPreference := .high
  features : T.Features
  limits : T.Limits

/- Why no device was found. -/
inductive BringUpFault where
  | noAdapter
  | readOnlyStorage (quotedName : String)
  | noDevice
  deriving DecidableEq, Repr

/- The text of a failed request. -/
def BringUpFault.message : BringUpFault → String
  | .noAdapter => "failed to find a suitable GPU adapter"
  | .readOnlyStorage quotedName =>
      "adapter " ++ quotedName ++
        " cannot write storage buffers from fragment " ++
        "shaders"
  | .noDevice => "failed to create wgpu device/queue"

namespace DeviceRequest

variable {m : Type → Type} {T : PlatformTypes}

/- The request that asks for as little as possible. -/
def default
    (platform : Platform m T) : DeviceRequest T where
  backends := platform.allBackends
  features := platform.noFeatures
  limits := platform.defaultLimits

/-
  Take the adapter that the platform offers, and a device of
  it.  The fragments of a draw must be able to write to
  storage buffers.
-/
def bringUp
    [Monad m]
    (request : DeviceRequest T)
    (platform : Platform m T) :
    m (Except BringUpFault (T.Adapter × T.Device)) := do
  let some adapter ←
      platform.requestAdapter request.backends request.power
    | return .error .noAdapter
  if !platform.writesStorage adapter then
    return .error
      (.readOnlyStorage (platform.quotedName adapter))
  let some device ←
      platform.requestDevice adapter request.features
        request.limits
    | return .error .noDevice
  platform.log
    ⟨.info, .device,
      "using adapter " ++ platform.name adapter ++ " (" ++
        platform.backend adapter ++ ")"⟩
  return .ok (adapter, device)

end DeviceRequest

end PagedRaster
