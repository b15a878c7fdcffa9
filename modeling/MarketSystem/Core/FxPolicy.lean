import MarketSystem.Execution.EurusdPullback

/-!
# The FX policy

For a pair of two fiat currencies the stop stands at a fixed number of pips from the
entry; the pip of a pair that is quoted in yen is a hundred times larger.
-/
namespace MarketSystem.FxPolicy

open EurusdPullback (FX_SL_MIN_PIPS FX_SL_MAX_PIPS SlClamp)

def FIAT : List String :=
  ["AUD", "CAD", "CHF", "CNH", "CZK", "DKK", "EUR", "GBP", "HKD", "HUF", "JPY", "MXN", "NOK", "NZD",
    "PLN", "SEK", "SGD", "TRY", "USD", "ZAR"]

/-- The two halves of a symbol. -/
def base (symbol : String) : String := String.ofList (symbol.toList.take 3)
def quote (symbol : String) : String := String.ofList (symbol.toList.drop 3)

/-- `is_fx`. -/
def isFx (symbol : String) : Bool :=
  decide (symbol.length = 6 ∧ base symbol ≠ quote symbol ∧ base symbol ∈ FIAT ∧ quote symbol ∈ FIAT)

/-- `pip_size`. -/
def pipSize (symbol : String) : Except String ℚ :=
  if isFx symbol then .ok (if quote symbol = "JPY" then 1 / 100 else 1 / 10000)
  else .error "not an FX symbol"

/-- `clamp_stop`: stop, action and structural pips; an `error` is an exception. -/
def clampStop (symbol : String) (side : Side) (entry stop : ℚ) :
    Except String (ℚ × SlClamp × ℚ) := do
  let pip ← pipSize symbol
  let distance := match side with
    | .long => entry - stop
    | .short => stop - entry
  if distance ≤ 0 then .error "stop must be on the protective side of the entry"
  else
    let pips := distance / pip
    let clamped (bound : ℚ) := match side with
      | .long => entry - bound * pip
      | .short => entry + bound * pip
    if pips < FX_SL_MIN_PIPS then .ok (clamped FX_SL_MIN_PIPS, .widened, pips)
    else if FX_SL_MAX_PIPS < pips then .ok (clamped FX_SL_MAX_PIPS, .narrowed, pips)
    else .ok (stop, .unchanged, pips)

/-- The pullback limit clamps its stop as every other plan on the pair. -/
theorem clampStop_eurusd (side : Side) (entry stop : ℚ) :
    clampStop "EURUSD" side entry stop = EurusdPullback.clampStop side entry stop := by
  have hpip : pipSize "EURUSD" = .ok EurusdPullback.pipSize := by decide +kernel
  unfold clampStop EurusdPullback.clampStop
  rw [hpip]
  rfl

end MarketSystem.FxPolicy
