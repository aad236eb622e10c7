import TypedStub.Name

/-! References: how a stub refers to a type that documentation names.

An alias is an informal name that documentation uses for a type, and it stands for the full path of the type. What a
path is referred to by depends on the module that the stub is made for.
-/

set_option autoImplicit false

namespace TypedStub

abbrev Aliases := NameMap String

namespace Aliases

def builtinEntries : List (String × String) := [
  ("Epoch", "anise.time.Epoch"),
  ("Duration", "anise.time.Duration"),
  ("TimeSeries", "anise.time.TimeSeries"),
  ("TimeScale", "anise.time.TimeScale"),
  ("Unit", "anise.time.Unit"),
  ("MonthName", "anise.time.MonthName"),
  ("Weekday", "anise.time.Weekday"),
  ("Frame", "anise.astro.Frame"),
  ("Orbit", "anise.astro.Orbit"),
  ("Location", "anise.astro.Location"),
  ("AzElRange", "anise.astro.AzElRange"),
  ("Occultation", "anise.astro.Occultation"),
  ("Ellipsoid", "anise.astro.Ellipsoid"),
  ("Ephemeris", "anise.astro.Ephemeris"),
  ("EphemerisRecord", "anise.astro.EphemerisRecord"),
  ("Mass", "anise.astro.Mass"),
  ("DragData", "anise.astro.DragData"),
  ("SRPData", "anise.astro.SRPData"),
  ("DafDataType", "anise.astro.DafDataType"),
  ("LocalFrame", "anise.astro.LocalFrame"),
  ("Covariance", "anise.astro.Covariance"),
  ("TerrainMask", "anise.astro.TerrainMask"),
  ("FrameUid", "anise.astro.FrameUid"),
  ("Aberration", "anise.Aberration"),
  ("Almanac", "anise.Almanac"),
  ("MetaAlmanac", "anise.MetaAlmanac"),
  ("MetaFile", "anise.MetaFile"),
  ("LocationDataSet", "anise.LocationDataSet"),
  ("LocationDhallSet", "anise.LocationDhallSet"),
  ("LocationDhallSetEntry", "anise.LocationDhallSetEntry"),
  ("PyLocationDataSet", "anise.LocationDataSet"),
  ("PyReportScalars", "anise.analysis.ReportScalars"),
  ("ReportScalars", "anise.analysis.ReportScalars"),
  ("Quaternion", "anise.rotation.Quaternion"),
  ("DCM", "anise.rotation.DCM"),
  ("Condition", "anise.analysis.Condition"),
  ("Event", "anise.analysis.Event"),
  ("EventDetails", "anise.analysis.EventDetails"),
  ("EventEdge", "anise.analysis.EventEdge"),
  ("OrbitalElement", "anise.analysis.OrbitalElement"),
  ("Plane", "anise.analysis.Plane"),
  ("VisibilityArc", "anise.analysis.VisibilityArc"),
  ("StateSpec", "anise.analysis.StateSpec"),
  ("PyStateSpec", "anise.analysis.StateSpec"),
  ("EventArc", "anise.analysis.EventArc"),
  ("PyEventArc", "anise.analysis.EventArc"),
  ("FrameSpec", "anise.analysis.FrameSpec"),
  ("PyFrameSpec", "anise.analysis.FrameSpec"),
  ("OrthogonalFrame", "anise.analysis.OrthogonalFrame"),
  ("PyOrthogonalFrame", "anise.analysis.OrthogonalFrame"),
  ("ScalarExpr", "anise.analysis.ScalarExpr"),
  ("PyScalarExpr", "anise.analysis.ScalarExpr"),
  ("VectorExpr", "anise.analysis.VectorExpr"),
  ("PyVectorExpr", "anise.analysis.VectorExpr"),
  ("Instrument", "anise.instrument.Instrument"),
  ("FovShape", "anise.instrument.FovShape"),
  ("numpy.array", "numpy.ndarray"),
  ("numpy.ndarray", "numpy.ndarray"),
  ("np.ndarray", "numpy.ndarray"),
  ("np.array", "numpy.ndarray"),
  ("tuples", "typing.Tuple")
]

def builtin : Aliases := .ofList builtinEntries

def expand (aliases : Aliases) (name : String) : String := (aliases.get? name).getD name

end Aliases

/-! ### How a stub refers to a documented type

A type of the module itself goes by its bare name. A type of a sibling module goes by its path inside
the common package. Any other dotted path is kept, and only a bare name needs no import.
-/

inductive Reference where
  | own (name : String)
  | imported (path importPath : String)
  | asWritten (path : String)
  deriving DecidableEq, Repr

namespace Reference

def text : Reference → String
  | .own name => name
  | .imported path _ => path
  | .asWritten path => path

def importPath? : Reference → Option String
  | .imported _ importPath => some importPath
  | .own _ | .asWritten _ => none

end Reference

/-- The module a stub is written for, with the aliases its documentation may use. -/
structure Viewpoint where
  aliases : Aliases
  moduleName : String

namespace Viewpoint

/-- The package that holds the module, or the module itself if it is in none. -/
def package (view : Viewpoint) : String := Dotted.head view.moduleName

/-- A path inside a package, reached by importing the first thing on the way from the package. -/
def through (package inner : String) : Reference :=
  .imported inner (package ++ "." ++ Dotted.head inner)

def referFull (view : Viewpoint) (path : String) : Reference :=
  match Dotted.within? view.moduleName path with
  | some inner => if Dotted.tail? inner = none then .own inner else through view.moduleName inner
  | none =>
    match if view.package = view.moduleName then none else Dotted.within? view.package path with
    | some inner => through view.package inner
    | none =>
      match Dotted.splitLast? path with
      | some (importPath, _) => .imported path importPath
      | none => .asWritten path

def refer (view : Viewpoint) (path : String) : Reference := view.referFull (view.aliases.expand path)

end Viewpoint

end TypedStub
