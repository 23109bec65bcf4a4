import ExchangeLoad.Config.Load
import ExchangeLoad.Json.Decode
import ExchangeLoad.Json.Parser
import ExchangeLoad.Json.Printer
import ExchangeLoad.Market
import ExchangeLoad.Report
import ExchangeLoad.Settings
import ExchangeLoad.Task
import ExchangeLoad.Threshold
import ExchangeLoad.Investor.Jobs
import ExchangeLoad.Pipeline
import ExchangeLoad.Run.Step
import ExchangeLoad.Rehearsal.Play
import ExchangeLoad.Rehearsal.Solo
import ExchangeLoad.Launch
import ExchangeLoad.Main
import ExchangeLoad.Proofs.Pipeline.Accounting
import ExchangeLoad.Proofs.Pipeline.Backpressure
import ExchangeLoad.Proofs.Pipeline.Closing
import ExchangeLoad.Proofs.Threshold
import ExchangeLoad.Proofs.Run.Budget
import ExchangeLoad.Proofs.Run.Conservation
import ExchangeLoad.Proofs.Run.Ending
import ExchangeLoad.Proofs.Run.Population
import ExchangeLoad.Proofs.Trader.Stock
import ExchangeLoad.Proofs.Trader.Flight
import ExchangeLoad.Proofs.Trader.Protocol
import ExchangeLoad.Proofs.Trader.Lifetime
import ExchangeLoad.Proofs.Trader.Aftermath
import ExchangeLoad.Proofs.Trader.Forsaken
import ExchangeLoad.Proofs.Run.Verdicts
import ExchangeLoad.Proofs.Run.Shutdown
import ExchangeLoad.Proofs.Http.Retirement
import ExchangeLoad.Proofs.Run.Foundation
import ExchangeLoad.Proofs.Run.Summit
import ExchangeLoad.Proofs.FinalScore
import ExchangeLoad.Proofs.Registry
import ExchangeLoad.Proofs.Trader.Quotes
import ExchangeLoad.Proofs.Run.Drain
import ExchangeLoad.Proofs.Allowance
import ExchangeLoad.Proofs.Http.Look
import ExchangeLoad.Proofs.Config.Overlay
