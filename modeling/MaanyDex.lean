import MaanyDex.MintBurn.Authority
import MaanyDex.GenesisMint.Mints
import MaanyDex.GenesisMint.Drained
import MaanyDex.GenesisMint.Export
import MaanyDex.GenesisMint.Budget
import MaanyDex.GenesisMint.Timeouts
import MaanyDex.GenesisMint.ProviderMsg
import MaanyDex.Osmomath.BigDecText
import MaanyDex.Osmomath.Search
import MaanyDex.Gamm.StableswapExact
import MaanyDex.Gamm.LiquidityIndex
import MaanyDex.Gamm.ExactJoin
import MaanyDex.Gamm.WeightedProduct
import MaanyDex.Gamm.WeightChange
import MaanyDex.PoolManager.AlloyedSkims
import MaanyDex.PoolManager.PriceImpact
import MaanyDex.InterchainQueries.Results
import MaanyDex.FeeBurner.Burning
import MaanyDex.Osmomath.RoundUp
import MaanyDex.Osmomath.MonotonicSqrt
import MaanyDex.Cron.Timing
import MaanyDex.InterchainQueries.Cleanup
import MaanyDex.InterchainQueries.ServicePeriod
import MaanyDex.Gamm.SplitRoutes
import MaanyDex.GlobalFee.Monotone
import MaanyDex.ContractManager.PacketCallbacks
import MaanyDex.AutomationGenesis
import MaanyDex.ConcentratedLiquidity.Types
import MaanyDex.ConcentratedLiquidity.Positions
import MaanyDex.ValsetPref.ValidatorSet
import MaanyDex.Epochs.Keeper
import MaanyDex.TxFees.BaseFee
