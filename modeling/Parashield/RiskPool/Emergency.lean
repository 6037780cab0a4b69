import Parashield.RiskPool.Liquidations
import Parashield.RiskPool.Redeeming

/-!
# Risk pool: redeeming with and without an emergency

A regular withdrawal pays the shares and the yield one after the other, and
nothing is paid where more yield was taken than earned.  With the approval of
the administrator both are paid as one sum, from which overdrawn yield is
subtracted.
-/

namespace Parashield.RiskPool

open Support Support.Contract Invocation Book

namespace Book

end Book

section Calls

variable {self provider admin : Address} {w w₁ w₂ : World State}
  {signers : List Address} {shares : ℤ} {p : LpPosition}

end Calls

/-! ## Before and after a liquidation -/

namespace Scenario

end Scenario

end Parashield.RiskPool
