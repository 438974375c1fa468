import ActorTs.Library.JsString

/-!
# Drawing a random identifier that is not taken

The random source is a parameter: `draws n` is the `n`-th candidate that
`generate` returns. How the candidates are distributed plays no role here, only
that a candidate the predicate reports as taken is drawn again, and that the
number of draws is bounded.
-/

namespace ActorTs

def MAXIMUM_DRAW_ATTEMPTS : ℕ := 1000

/-- The first of `attempts` draws from `n` on that is not taken. -/
def drawFrom (draws : ℕ → JsString) (taken : JsString → Bool) : ℕ → ℕ → Option JsString
  | 0, _ => none
  | attempts + 1, n =>
    if taken (draws n) then drawFrom draws taken attempts (n + 1) else some (draws n)

/-- `none` is the throw after `MAXIMUM_DRAW_ATTEMPTS` taken candidates. -/
def drawUntilFree (draws : ℕ → JsString) (taken : JsString → Bool) : Option JsString :=
  drawFrom draws taken MAXIMUM_DRAW_ATTEMPTS 0

def randomId (draws : ℕ → JsString) (taken : JsString → Bool) : Option JsString :=
  drawUntilFree draws taken

variable {draws : ℕ → JsString} {taken : JsString → Bool}

lemma randomId_of_free (h : taken (draws 0) = false) : randomId draws taken = some (draws 0) := by
  change drawFrom draws taken (999 + 1) 0 = _
  rw [drawFrom, h]
  rfl

end ActorTs
