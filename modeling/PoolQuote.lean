import PoolQuote.Account.Writer
import PoolQuote.Binary64
import PoolQuote.Main
import PoolQuote.Proofs.Consistency
import PoolQuote.Proofs.Conversion
import PoolQuote.Proofs.NextPrice
import PoolQuote.Proofs.SwapStep
import PoolQuote.Proofs.Window
import PoolQuote.Proofs.Search
import PoolQuote.Proofs.SwapLeg
import PoolQuote.Proofs.SwapPath
import PoolQuote.Proofs.PriceAndTick
import PoolQuote.Proofs.Crossing
import PoolQuote.Proofs.Lockstep
import PoolQuote.Proofs.Splitting
import PoolQuote.Proofs.RoundTrip
import PoolQuote.Proofs.Monotone
import PoolQuote.Proofs.SideCost
import PoolQuote.Proofs.ExchangeRate
import PoolQuote.Proofs.Overdraw
import PoolQuote.Proofs.Fill
import PoolQuote.Proofs.FeeSplit
import PoolQuote.Proofs.OutsideGrowth
import PoolQuote.Proofs.SearchWalk
import PoolQuote.Proofs.LoopBound
import PoolQuote.Proofs.WordArithmetic
import PoolQuote.Proofs.WordStep
import PoolQuote.Proofs.WordSearch
import PoolQuote.Proofs.WordSwap
import PoolQuote.Proofs.TickLogarithm
import PoolQuote.Proofs.Resubmission
import PoolQuote.Proofs.Sufficiency
import PoolQuote.Proofs.Bookkeeping
import PoolQuote.Proofs.DevFee
import PoolQuote.Proofs.StepRounding
import PoolQuote.Proofs.AccountLayout
import PoolQuote.Proofs.AccountDecoding
import PoolQuote.Proofs.KeyText
import PoolQuote.Proofs.JsonForms
import PoolQuote.Proofs.JsonRecords
import PoolQuote.Proofs.StepFailure
import PoolQuote.Proofs.TickLookup
import PoolQuote.Proofs.NearestTick
import PoolQuote.Proofs.Slippage
import PoolQuote.Proofs.RewardAccrual
import PoolQuote.Proofs.ArrayStarts
import PoolQuote.Proofs.DerivedWindow
import PoolQuote.Proofs.TickPosition
import PoolQuote.Proofs.AddressBook
import PoolQuote.Proofs.ConfigurationFile
import PoolQuote.Proofs.LoopSuccess
