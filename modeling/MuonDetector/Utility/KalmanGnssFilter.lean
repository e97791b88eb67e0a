import MuonDetector.Library.Floats

/-!
# The Kalman filter of the position

The filter weighs each measurement against its own position by their variances. A
negative variance says that it has no position yet. Times are in nanoseconds of the
steady clock.
-/

namespace MuonDetector.Utility

open MuonDetector.Library.Floats

variable {F : Type}

structure KalmanGnssFilter (F : Type) where
  accuracyDecay : F
  timestamp : Int := 0
  lat : F
  lng : F
  alt : F
  variance : F
  deriving DecidableEq, Repr

namespace KalmanGnssFilter

variable [Floating F]

def minAccuracy : F := 1.0

def create (accuracyDecay : F) : KalmanGnssFilter F where
  accuracyDecay := accuracyDecay
  lat := 0.0
  lng := 0.0
  alt := 0.0
  variance := Floating.ofInt (-1)

def setState (k : KalmanGnssFilter F) (lat lng alt accuracy : F) (now : Int) :
    KalmanGnssFilter F :=
  { k with lat := lat, lng := lng, alt := alt, variance := accuracy * accuracy, timestamp := now }

def reset (k : KalmanGnssFilter F) : KalmanGnssFilter F :=
  { k with lat := 0.0, lng := 0.0, alt := 0.0, variance := Floating.ofInt (-1) }

/-- The milliseconds since the last measurement, in the 32 bits of an `unsigned int`. -/
def timeIncrement (k : KalmanGnssFilter F) (now : Int) : Int :=
  (now - k.timestamp).tdiv 1000000 % 2 ^ 32

/-- The uncertainty grows with the time that has passed. -/
def propagate (k : KalmanGnssFilter F) (now : Int) : KalmanGnssFilter F :=
  let increment := k.timeIncrement now
  if increment > 0 then
    { k with
      variance := k.variance +
        Floating.ofInt increment * k.accuracyDecay * k.accuracyDecay / 1000.0
      timestamp := now }
  else k

/-- The measurement moves the position by the gain. -/
def correct (k : KalmanGnssFilter F) (lat lng alt accuracy : F) : KalmanGnssFilter F :=
  let gain := k.variance / (k.variance + accuracy * accuracy)
  { k with
    lat := k.lat + gain * (lat - k.lat)
    lng := k.lng + gain * (lng - k.lng)
    alt := k.alt + gain * (alt - k.alt)
    variance := (1.0 - gain) * k.variance }

def process (k : KalmanGnssFilter F) (lat lng alt accuracy : F) (now : Int) :
    KalmanGnssFilter F :=
  let localAccuracy := if accuracy < minAccuracy then minAccuracy else accuracy
  if k.variance < 0.0 then k.setState lat lng alt localAccuracy now
  else (k.propagate now).correct lat lng alt localAccuracy

def getAccuracy [SquareRoot F] (k : KalmanGnssFilter F) : F := SquareRoot.sqrt k.variance

end KalmanGnssFilter

end MuonDetector.Utility
