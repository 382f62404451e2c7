import SqlxData.Core.Cache
import SqlxData.Core.GlobalCache
import SqlxData.Core.Parser
import SqlxData.Core.ParserCount
import SqlxData.Core.ParserInsert
import SqlxData.Count.AggregateQuery
import SqlxData.Count.CountArgs
import SqlxData.Count.CountStatement
import SqlxData.Count.DistinctQuery
import SqlxData.Count.Engine
import SqlxData.Count.Names
import SqlxData.Count.PlainCount
import SqlxData.Dynamic.BoundText
import SqlxData.Dynamic.Builder
import SqlxData.Dynamic.ConditionWords
import SqlxData.Dynamic.CursorBinds
import SqlxData.Dynamic.CursorStatement
import SqlxData.Dynamic.Emits
import SqlxData.Dynamic.FilterMeaning
import SqlxData.Dynamic.FilterNot
import SqlxData.Dynamic.FilterTruth
import SqlxData.Dynamic.FreshPlaceholders
import SqlxData.Dynamic.Grouping
import SqlxData.Dynamic.LexicalSafety
import SqlxData.Dynamic.LimitBinds
import SqlxData.Dynamic.Noninterference
import SqlxData.Dynamic.NumberedBinds
import SqlxData.Dynamic.Placeholders
import SqlxData.Dynamic.PlainWords
import SqlxData.Dynamic.PositionalBinds
import SqlxData.Dynamic.Printed
import SqlxData.Dynamic.Renumbering
import SqlxData.Dynamic.SafeLike
import SqlxData.Dynamic.SetOperations
import SqlxData.Dynamic.SortWhitelist
import SqlxData.Dynamic.SqliteBinds
import SqlxData.Dynamic.Success
import SqlxData.Dynamic.Validation
import SqlxData.Dynamic.WhereText
import SqlxData.Lib.BoolText
import SqlxData.Lib.ConditionText
import SqlxData.Lib.JoinOrder
import SqlxData.Lib.Json
import SqlxData.Lib.Memo
import SqlxData.Lib.NumberedText
import SqlxData.Lib.Pieces
import SqlxData.Lib.ReferenceGraph
import SqlxData.Lib.Rewriting
import SqlxData.Lib.Seek
import SqlxData.Lib.Text
import SqlxData.Lib.Threads
import SqlxData.Lib.ThreeValued
import SqlxData.Macros.AliasExpansion
import SqlxData.Macros.AliasOrder
import SqlxData.Macros.AliasSystem
import SqlxData.Macros.AliasText
import SqlxData.Macros.BatchInsert
import SqlxData.Macros.CastCleaning
import SqlxData.Macros.ColumnName
import SqlxData.Macros.Injection
import SqlxData.Macros.IntegerConversion
import SqlxData.Macros.MultiInsert
import SqlxData.Macros.NamedParams
import SqlxData.Macros.ParamTransform
import SqlxData.Macros.RepoSystem
import SqlxData.Macros.ScopeAttributes
import SqlxData.Macros.ScopeClauses
import SqlxData.Macros.ScopeOrder
import SqlxData.Macros.ScopeSystem
import SqlxData.Macros.ScopeText
import SqlxData.Macros.ScopedRequests
import SqlxData.Macros.SynType
import SqlxData.Macros.TupleFields
import SqlxData.Macros.TypeAnalyzer
import SqlxData.Paging.CountedPages
import SqlxData.Paging.CursorError
import SqlxData.Paging.CursorOrder
import SqlxData.Paging.FetchPage
import SqlxData.Paging.ForwardWalk
import SqlxData.Paging.Lookahead
import SqlxData.Paging.Navigation
import SqlxData.Paging.NullWalk
import SqlxData.Paging.OffsetPages
import SqlxData.Paging.ReverseOrder
import SqlxData.Paging.Table
import SqlxData.Params.Binding
import SqlxData.Params.Builder
import SqlxData.Params.Cursor
import SqlxData.Params.CursorJson
import SqlxData.Params.Filter
import SqlxData.Params.Params
import SqlxData.Params.Response
import SqlxData.Params.Sorting
import SqlxData.Sqlparser.Ast
import SqlxData.Sqlparser.Display
import SqlxData.Sqlparser.Reference
