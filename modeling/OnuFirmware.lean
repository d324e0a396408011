import OnuFirmware.Cfg.Address
import OnuFirmware.Cfg.Run
import OnuFirmware.Cfg.Lookup
import OnuFirmware.Cfg.Content
import OnuFirmware.Romfile.Recovery
import OnuFirmware.Svchost.Registry
import OnuFirmware.LanHost.Ipv6Protocol
import OnuFirmware.LanHost.Nodes
import OnuFirmware.LanHost.Keys
import OnuFirmware.Cfg.Xml
import OnuFirmware.Cfg.Reset
import OnuFirmware.Cfg.Naming
import OnuFirmware.Wan.DefaultRoute
import OnuFirmware.Wan.McastProxy
import OnuFirmware.Wan.PortBinding
import OnuFirmware.Wan.OtherBind
import OnuFirmware.Wan.NptMask
import OnuFirmware.Wan.PdIndex
import OnuFirmware.Wan.DhcpFilter
import OnuFirmware.Wan.LoadCfg
import OnuFirmware.Wan.Br0Addr
import OnuFirmware.Wan.ForwardList
import OnuFirmware.Cwmp.AccessFlags
import OnuFirmware.Filter.Delete
import OnuFirmware.Wan.VlanBind
import OnuFirmware.Other.HostControl
import OnuFirmware.Other.Parental
import OnuFirmware.Romfile.Check
import OnuFirmware.Central.WeekDay
import OnuFirmware.Central.WifiMask
import OnuFirmware.Wan.OnDemandSwitch
import OnuFirmware.Wan.PolicyRoute
import OnuFirmware.Wan.Resolve
import OnuFirmware.Cfg.ParentObj
import OnuFirmware.Cfg.CreateObj
import OnuFirmware.Cfg.TypeMem
import OnuFirmware.Cfg.ObjMem
import OnuFirmware.Cfg.TokenCalls
import OnuFirmware.Cfg.QuerySlots
import OnuFirmware.Cfg.HashmapRuns
import OnuFirmware.Cfg.SaveXml
import OnuFirmware.Utility.Escape
import OnuFirmware.Utility.Url
import OnuFirmware.Utility.Alarm
import OnuFirmware.Utility.CutAdd
import OnuFirmware.Wan.MaskFormat
import OnuFirmware.LanHost.Base64
import OnuFirmware.LanHost.Evict
import OnuFirmware.LanHost.AddHost
import OnuFirmware.LanHost.Rate
import OnuFirmware.Svchost.Parse
import OnuFirmware.Svchost.Event
import OnuFirmware.Tr181.StackVisit
import OnuFirmware.Wlan.Mapping
import OnuFirmware.Wlan.AllowList
import OnuFirmware.Qos.Rules
import OnuFirmware.StaticRoute.Runs
import OnuFirmware.Tcapi.CryptPasswd
import OnuFirmware.Tr181.EnableCheck
import OnuFirmware.Asp.PageRuns
import OnuFirmware.Asp.ParamLine
import OnuFirmware.Asp.StringLookup
import OnuFirmware.Asp.Script
import OnuFirmware.Mesh.BssFileRight
import OnuFirmware.Mesh.PrimaryVlan
import OnuFirmware.Tr181.PortMapRuns
import OnuFirmware.Tr181.RouteForwardRuns
