import LunchRush.Violation
/-!
# Search areas

A circle on the map in which the gateway lists restaurants.
-/

namespace LunchRush

/-- A circle on the map. -/
structure Area where
  latitude : Float
  longitude : Float
  radiusKm : Float
deriving DecidableEq, Repr

/-- A circle with a positive radius around a point on the globe. The radius is checked first. -/
def Area.new (latitude longitude radiusKm : Float) : Except Violation Area :=
  if !(radiusKm.isFinite && 0 < radiusKm) then .error (.invalidRadius radiusKm)
  else if !Bounds.within (-90.0) 90.0 latitude then .error (.latitudeOutside latitude (-90.0) 90.0)
  else if !Bounds.within (-180.0) 180.0 longitude then
    .error (.longitudeOutside longitude (-180.0) 180.0)
  else .ok ⟨latitude, longitude, radiusKm⟩

/-- The wide circle in which existing restaurants are looked up. -/
def Area.discovery : Area := ⟨9.0, 38.0, 100.0⟩

/-- Ten kilometres around the city centre. -/
def Area.cityCentre : Area := ⟨9.0192, 38.7525, 10.0⟩

end LunchRush
