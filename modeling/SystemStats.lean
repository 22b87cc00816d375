import SystemStats.TextLines
import SystemStats.DecimalText
import SystemStats.FormattedInput
import SystemStats.LineScan
import SystemStats.MemoryStats
import SystemStats.MeminfoScan
import SystemStats.MeminfoFile
import SystemStats.PosixRegex
import SystemStats.PosixRegexSyntax
import SystemStats.DuckDB
import SystemStats.DiskStats
import SystemStats.MountFilter
import SystemStats.DiskSizes
import SystemStats.DiskExact
import SystemStats.ChunkedScan
import SystemStats.NetworkStats
import SystemStats.ListCounts
import SystemStats.NetworkRows
import SystemStats.OffsetWalk
import SystemStats.RouteWalk
import SystemStats.MemoryUnitUtil
import SystemStats.QueryFunctions
import SystemStats.QueryBatches
import SystemStats.UnitRuns
import SystemStats.LinkSpeed
import SystemStats.StringUtils
import SystemStats.Trimming
import SystemStats.CpuStats
import SystemStats.CacheSize
import SystemStats.CpuCounts
import SystemStats.CpuFields
import SystemStats.OsInfo
import SystemStats.OsName
import SystemStats.ProcessScan
import SystemStats.NulCursor
import SystemStats.StatLine
import SystemStats.ProcessTable
import SystemStats.ScopeGuards
import SystemStats.HeldResources
import SystemStats.HostActions
import SystemStats.LinuxProbes
import SystemStats.ProcessStates
import SystemStats.HandleCounts
import SystemStats.OsProbe
import SystemStats.EventRuns
import SystemStats.WeakPointers
import SystemStats.InstanceCache
import SystemStats.MacProbes
import SystemStats.MacReports
import SystemStats.MacProcesses
import SystemStats.TableFunctions
import SystemStats.Sessions
