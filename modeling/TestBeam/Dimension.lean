/-!
# Dimensions and units

Every unit measures one dimension and has a factor into the internal units: millimetre, nanosecond,
mega-electronvolt, megavolt, kelvin, radian and elementary charge. A tesla is 0.001 in these units.
-/

namespace TestBeam

/-- What a unit measures. -/
inductive Dimension where
  | length
  | time
  | energy
  | voltage
  | magneticField
  | temperature
  | angle
  | charge
  | dimensionless
  deriving DecidableEq, Repr

def Dimension.all : List Dimension :=
  [.length, .time, .energy, .voltage, .magneticField, .temperature, .angle, .charge,
    .dimensionless]

def Dimension.name : Dimension → String
  | .length => "length"
  | .time => "time"
  | .energy => "energy"
  | .voltage => "voltage"
  | .magneticField => "magnetic field"
  | .temperature => "temperature"
  | .angle => "angle"
  | .charge => "charge"
  | .dimensionless => "dimensionless"

/-- A unit symbol with its dimension and its factor to the internal unit. -/
structure MeasureUnit where
  symbol : String
  dimension : Dimension
  factor : Float

/-- The ratio of a circle's circumference to its diameter. -/
def pi : Float := 3.141592653589793

namespace MeasureUnit

def table : List MeasureUnit :=
  [ ⟨"nm", .length, 1e-6⟩,
    ⟨"um", .length, 1e-3⟩,
    ⟨"mm", .length, 1⟩,
    ⟨"cm", .length, 10⟩,
    ⟨"m", .length, 1e3⟩,
    ⟨"ps", .time, 1e-3⟩,
    ⟨"ns", .time, 1⟩,
    ⟨"us", .time, 1e3⟩,
    ⟨"ms", .time, 1e6⟩,
    ⟨"s", .time, 1e9⟩,
    ⟨"eV", .energy, 1e-6⟩,
    ⟨"keV", .energy, 1e-3⟩,
    ⟨"MeV", .energy, 1⟩,
    ⟨"GeV", .energy, 1e3⟩,
    ⟨"TeV", .energy, 1e6⟩,
    ⟨"V", .voltage, 1e-6⟩,
    ⟨"kV", .voltage, 1e-3⟩,
    ⟨"MV", .voltage, 1⟩,
    ⟨"mT", .magneticField, 1e-6⟩,
    ⟨"T", .magneticField, 1e-3⟩,
    ⟨"K", .temperature, 1⟩,
    ⟨"rad", .angle, 1⟩,
    ⟨"mrad", .angle, 1e-3⟩,
    ⟨"deg", .angle, pi / 180⟩,
    ⟨"e", .charge, 1⟩,
    ⟨"ke", .charge, 1e3⟩,
    ⟨"fC", .charge, 6241.509074460763⟩,
    ⟨"C", .charge, 6.241509074460763e18⟩ ]

def find? (symbol : String) : Option MeasureUnit :=
  table.find? (·.symbol == symbol)

end MeasureUnit

end TestBeam
